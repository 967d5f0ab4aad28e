import Gstio.Word
import Mathlib.Data.Nat.Digits
import Mathlib.Tactic.Ring

/-!
# Gstio.Symbol — `symbol` and `symbol_code` of `symbol.hpp`

A `symbol` is a `uint64_t`: its low byte is the number of decimals and the bytes above it are the
name, one character a byte from the second byte up.  `string_to_symbol` packs a name, `name()`
unpacks one, and both constructors of `symbol` assert `valid()`, so a `Symbol` carries that check.
`symbol_code` is the value without the decimals byte.

The text functions `symbol.hpp` calls and the sources do not include (`fc::trim`,
`fc::to_int64`, the `to_string` of the decimals) are the fields of `TextFns`, a parameter of
`from_string` and `to_string`.

* `stringToSymbolLoop_eq` — the packing loop over an upper-case name that fits is the base-256
  number of its characters, shifted past the decimals byte;
* `ofDigits_nameLoop`, `nameLoop_ofDigits` — the characters `name()` reads are the base-256
  digits of the value above the decimals, and they read a packed name back;
* `stringToSymbol_name` — packing a valid value's decimals and name rebuilds the value;
* `stringToSymbolLoop_long` — the eighth character of a name is shifted by `8 * 8`, which the
  hardware takes mod 64, so it lands in the decimals byte;
* `fromVariant_toVariant` — a `symbol_code` sent through its variant comes back with its top
  byte cleared.
-/

namespace Gstio

/-! ### Bytes of a `uint64_t` -/

/-- `uint8_t`. -/
abbrev U8 := Fin (2 ^ 8)

/-- `x << n` on `uint64_t`.  A count of 64 or more is undefined in ISO C++; the model takes the
count mod 64, as the x86-64 and AArch64 shift instructions do. -/
def shl64 (x : U64) (n : Nat) : U64 := x <<< toUnsigned 64 (n % 64)

theorem toUnsigned_val_nat {n : Nat} (h : n < 2 ^ 64) : (toUnsigned 64 n).val = n := by
  rw [toUnsigned_val_of_lt (by omega) (by exact_mod_cast h), Int.toNat_ofNat]

theorem shl64_val (x : U64) (n : Nat) : (shl64 x n).val = x.val * 2 ^ (n % 64) % 2 ^ 64 := by
  show (x.val <<< (toUnsigned 64 (n % 64 : Nat)).val) % 2 ^ 64 = _
  rw [toUnsigned_val_nat (by omega), Nat.shiftLeft_eq]

@[simp] theorem U64.or_val (x y : U64) : (x ||| y).val = x.val ||| y.val :=
  Nat.mod_eq_of_lt (Nat.or_lt_two_pow x.isLt y.isLt)

@[simp] theorem U64.and_val (x y : U64) : (x &&& y).val = x.val &&& y.val :=
  Nat.mod_eq_of_lt (Nat.lt_of_le_of_lt Nat.and_le_left x.isLt)

@[simp] theorem U64.shiftRight_eight_val (x : U64) : (x >>> 8).val = x.val / 256 := by
  show (x.val >>> 8) % 2 ^ 64 = _
  have := x.isLt
  rw [Nat.shiftRight_eq_div_pow, Nat.mod_eq_of_lt (by omega)]

theorem byte_val (w : U64) : (w &&& 0xFF).val = w.val % 256 := by
  rw [U64.and_val]; exact Nat.and_pow_two_sub_one_eq_mod w.val 8

/-- ORing in a multiple of `2^k` above a value below `2^k` adds it. -/
theorem or_mul_two_pow {acc k : Nat} (h : acc < 2 ^ k) (a : Nat) : acc ||| a * 2 ^ k = acc + a * 2 ^ k := by
  rw [Nat.or_comm, Nat.mul_comm, ← Nat.mul_add_lt_is_or h, Nat.add_comm]

theorem Char.toNat_ofNat_of_lt {n : Nat} (h : n < 256) : (Char.ofNat n).toNat = n := by
  have hv : n.isValidChar := Or.inl (by omega)
  simp [Char.ofNat, hv, Char.ofNatAux, Char.toNat, UInt32.toNat]

theorem upper_iff {c : Char} : ('A' ≤ c ∧ c ≤ 'Z') ↔ 65 ≤ c.toNat ∧ c.toNat ≤ 90 :=
  Iff.rfl

/-- Every character `'A'..'Z'` has the bit of 64 set. -/
theorem upper_testBit {c : Char} (h : 65 ≤ c.toNat ∧ c.toNat ≤ 90) : c.toNat.testBit 6 = true := by
  have key : ∀ n < 91, 65 ≤ n → n.testBit 6 = true := by decide
  exact key _ (by omega) h.1

/-! ### The model -/

/-- The exceptions of `symbol.hpp`: `symbol_type_exception` with its message, and the exception
`fc::to_int64` raises on a text it cannot read. -/
inductive SymbolErr
  | symbolTypeException (msg : String)
  | toInt64Exception
deriving DecidableEq, Repr

/-- `GST_ASSERT(c, symbol_type_exception, msg)`. -/
def symbolAssert (c : Prop) [Decidable c] (msg : String) : Except SymbolErr Unit :=
  if c then .ok () else .error (.symbolTypeException msg)

@[simp] theorem symbolAssert_bind {α : Type} {c : Prop} [Decidable c] {msg : String}
    {g : Unit → Except SymbolErr α} :
    (symbolAssert c msg >>= g) = if c then g () else .error (.symbolTypeException msg) := by
  unfold symbolAssert; split <;> rfl

/-- `symbol::max_precision`. -/
def maxPrecision : Nat := 18

namespace Symbol

/-- `decimals()`: `m_value & 0xFF`, as a `uint8_t`. -/
def decimals (v : U64) : U8 := toUnsigned 8 (v &&& 0xFF).val

/-- The `while (v > 0)` loop of `name()`: one character a pass, the low byte first, a byte read
as the character of that code. -/
def nameLoop : Nat → U64 → List Char
  | 0, _ => []
  | fuel + 1, v => if 0 < v.val then Char.ofNat (v &&& 0xFF).val :: nameLoop fuel (v >>> 8) else []

/-- `name()`.  After the first `v >>= 8` seven bytes are left, so seven passes end the loop
(`ofDigits_nameLoop`: the characters read are then all the bytes there are). -/
def name (v : U64) : List Char := nameLoop 7 (v >>> 8)

/-- `valid_name`: every character is `'A'..'Z'`. -/
def validName (name : List Char) : Bool := name.all fun c => 'A' ≤ c && c ≤ 'Z'

/-- `valid()`. -/
def valid (v : U64) : Bool := decide ((decimals v).val ≤ maxPrecision) && validName (name v)

end Symbol

/-- `symbol`: its value, which every constructor has checked with `valid()`. -/
structure Symbol where
  value : U64
  value_valid : Symbol.valid value = true
deriving DecidableEq

/-- The loop of `string_to_symbol` from index `i`: each character is checked to be `'A'..'Z'`
and ORed into byte `i + 1` of `result`. -/
def stringToSymbolLoop : List Char → Nat → U64 → Except SymbolErr U64
  | [], _, result => .ok result
  | c :: cs, i, result => do
    symbolAssert ('A' ≤ c ∧ c ≤ 'Z') "invalid character in symbol name"
    stringToSymbolLoop cs (i + 1) (result ||| shl64 (toUnsigned 64 c.toNat) (8 * (i + 1)))

/-- `string_to_symbol(precision, str)`; `str` is a C string, read up to its first NUL. -/
def stringToSymbol (precision : U8) (str : List Char) : Except SymbolErr U64 := do
  let result ← stringToSymbolLoop (str.takeWhile (· ≠ Char.ofNat 0)) 0 0
  pure (result ||| toUnsigned 64 precision.val)

/-- The text helpers `symbol.hpp` calls that are not among the sources: `fc::trim`,
`fc::to_int64` (`none` where it raises) and the `to_string` that prints the decimals. -/
structure TextFns where
  trim : List Char → List Char
  toInt64 : List Char → Option I64
  toString : Nat → List Char

namespace Symbol

/-- The constructor `symbol(uint64_t v)`. -/
def ofValue (v : U64) : Except SymbolErr Symbol :=
  if h : valid v = true then .ok ⟨v, h⟩ else .error (.symbolTypeException "invalid symbol: ${name}")

/-- The constructor `symbol(uint8_t p, const char* s)`. -/
def ofString (p : U8) (s : List Char) : Except SymbolErr Symbol := do
  let v ← stringToSymbol p s
  if h : valid v = true then .ok ⟨v, h⟩ else .error (.symbolTypeException "invalid symbol: ${s}")

/-- `symbol::from_string`.  `find(',')` splits the trimmed text into the characters before the
first comma (`takeWhile`) and the rest from the comma on (`dropWhile`), empty when there is no
comma. -/
def fromString (F : TextFns) (fromText : List Char) : Except SymbolErr Symbol := do
  let s := F.trim fromText
  symbolAssert (s ≠ []) "creating symbol from empty string"
  match s.dropWhile (· ≠ ',') with
  | [] => .error (.symbolTypeException "missing comma in symbol")
  | _ :: namePart =>
    let p : U8 ← match F.toInt64 (s.takeWhile (· ≠ ',')) with
      | some n => .ok (toUnsigned 8 n.val)
      | none => .error .toInt64Exception
    symbolAssert (p.val ≤ maxPrecision) "precision ${p} should be <= 18"
    ofValue (← stringToSymbol p namePart)

/-- `operator string()`: the decimals, a comma, the name. -/
def toString (F : TextFns) (s : Symbol) : List Char :=
  F.toString (decimals s.value).val ++ ',' :: name s.value

/-- `to_symbol_code()`. -/
def toSymbolCode (s : Symbol) : U64 := s.value >>> 8

/-- The `while (p > 0)` loop of `precision()`: `p10 *= 10` in `uint64_t`, once a pass. -/
def precisionLoop : Nat → U64 → U64
  | 0, p10 => p10
  | p + 1, p10 => precisionLoop p (p10 * 10)

/-- `precision()`: the decimals are checked again, then `p10 = 1` is multiplied by ten once for
each of them. -/
def precision (s : Symbol) : Except SymbolErr U64 := do
  symbolAssert ((decimals s.value).val ≤ maxPrecision) "precision ${p} should be <= 18"
  pure (precisionLoop (decimals s.value).val 1)

end Symbol

/-- `symbol_code`. -/
structure SymbolCode where
  value : U64
deriving DecidableEq, Repr

/-- `fc::to_variant(symbol_code)`: the name of `symbol(value << 8)`, whose constructor checks it. -/
def SymbolCode.toVariant (c : SymbolCode) : Except SymbolErr (List Char) := do
  let s ← Symbol.ofValue (shl64 c.value 8)
  pure (Symbol.name s.value)

/-- `fc::from_variant(symbol_code)`: the code of `symbol(0, text)`. -/
def SymbolCode.fromVariant (text : List Char) : Except SymbolErr SymbolCode := do
  let s ← Symbol.ofString 0 text
  pure ⟨s.toSymbolCode⟩

/-! ### Packing and unpacking a name -/

theorem Symbol.decimals_val (v : U64) : (Symbol.decimals v).val = v.val % 256 := by
  rw [Symbol.decimals, byte_val, toUnsigned_val_of_lt (by omega) (by omega)]; omega

theorem Symbol.validName_cons {c : Char} {cs : List Char} :
    Symbol.validName (c :: cs) = true ↔ ('A' ≤ c ∧ c ≤ 'Z') ∧ Symbol.validName cs = true := by
  simp [Symbol.validName]

theorem Symbol.validName_iff {cs : List Char} :
    Symbol.validName cs = true ↔ ∀ c ∈ cs, 65 ≤ c.toNat ∧ c.toNat ≤ 90 := by
  simp only [Symbol.validName, List.all_eq_true, Bool.and_eq_true, decide_eq_true_eq]; rfl

theorem Symbol.valid_iff {v : U64} :
    Symbol.valid v = true ↔ (Symbol.decimals v).val ≤ maxPrecision ∧ Symbol.validName (Symbol.name v) = true := by
  rw [Symbol.valid, Bool.and_eq_true, decide_eq_true_iff]

/-- **The packing loop.**  Over an upper-case name that fits below byte 8, the loop adds the
base-256 number of the name's characters, shifted to byte `i + 1`. -/
theorem stringToSymbolLoop_eq : ∀ (cs : List Char) (i : Nat) (acc : U64), i + cs.length ≤ 7 →
    acc.val < 2 ^ (8 * (i + 1)) → Symbol.validName cs = true →
    ∃ r : U64, stringToSymbolLoop cs i acc = .ok r ∧
      r.val = acc.val + Nat.ofDigits 256 (cs.map Char.toNat) * 2 ^ (8 * (i + 1))
  | [], _, acc, _, _, _ => ⟨acc, rfl, by simp⟩
  | c :: cs, i, acc, hi, hacc, hv => by
    obtain ⟨hup, hv⟩ := Symbol.validName_cons.mp hv
    have hc := upper_iff.mp hup
    have hlen : i + 1 + cs.length ≤ 7 := by simp at hi; omega
    have hPle : 2 ^ (8 * (i + 1)) * 2 ^ 8 ≤ 2 ^ 64 := by
      rw [← pow_add]; exact Nat.pow_le_pow_right (by omega) (by omega)
    have hcP : c.toNat * 2 ^ (8 * (i + 1)) ≤ 90 * 2 ^ (8 * (i + 1)) := Nat.mul_le_mul_right _ hc.2
    have hnext : 2 ^ (8 * (i + 1 + 1)) = 2 ^ (8 * (i + 1)) * 2 ^ 8 := by rw [← pow_add]; rfl
    have hacc' : (acc ||| shl64 (toUnsigned 64 c.toNat) (8 * (i + 1))).val =
        acc.val + c.toNat * 2 ^ (8 * (i + 1)) := by
      rw [U64.or_val, shl64_val, toUnsigned_val_nat (by omega), Nat.mod_eq_of_lt (by omega : 8 * (i + 1) < 64),
        Nat.mod_eq_of_lt (by omega), or_mul_two_pow hacc]
    obtain ⟨r, hr, hrv⟩ := stringToSymbolLoop_eq cs (i + 1) _ hlen (by rw [hacc', hnext]; omega) hv
    refine ⟨r, by rw [stringToSymbolLoop, symbolAssert_bind, if_pos hup]; exact hr, ?_⟩
    rw [hrv, hacc', List.map_cons, Nat.ofDigits_cons, hnext]
    ring

theorem length_nameLoop : ∀ (f : Nat) (w : U64), (Symbol.nameLoop f w).length ≤ f
  | 0, _ => Nat.le_refl 0
  | f + 1, w => by
    rw [Symbol.nameLoop]
    split
    · exact Nat.succ_le_succ (length_nameLoop f _)
    · exact Nat.zero_le _

/-- **`name()` reads the bytes.**  With enough passes, the characters `name()` reads are the
base-256 digits of the value, up to its highest nonzero byte. -/
theorem ofDigits_nameLoop : ∀ (f : Nat) (w : U64), w.val < 2 ^ (8 * f) →
    Nat.ofDigits 256 ((Symbol.nameLoop f w).map Char.toNat) = w.val
  | 0, w, hw => by simp at hw; simp [Symbol.nameLoop, hw]
  | f + 1, w, hw => by
    have hwf : 2 ^ (8 * (f + 1)) = 2 ^ (8 * f) * 2 ^ 8 := by rw [← pow_add]; rfl
    rw [Symbol.nameLoop]
    split
    · rw [List.map_cons, Nat.ofDigits_cons, byte_val, Char.toNat_ofNat_of_lt (by omega),
        ofDigits_nameLoop f _ (by rw [U64.shiftRight_eight_val]; omega), U64.shiftRight_eight_val]
      omega
    · simp; omega

/-- **`name()` reads a packed name back**: the characters of a value whose bytes above the
decimals are nonzero codes, as many as the passes. -/
theorem nameLoop_ofDigits : ∀ (cs : List Char) (f : Nat) (w : U64), cs.length ≤ f →
    (∀ c ∈ cs, 0 < c.toNat ∧ c.toNat < 256) → w.val = Nat.ofDigits 256 (cs.map Char.toNat) →
    Symbol.nameLoop f w = cs
  | [], 0, _, _, _, _ => rfl
  | [], _ + 1, w, _, _, hw => by simp [Symbol.nameLoop, hw]
  | c :: cs, f + 1, w, hl, hc, hw => by
    rw [List.map_cons, Nat.ofDigits_cons] at hw
    have hc0 := hc c (List.mem_cons_self _ _)
    have hbyte : (w &&& 0xFF).val = c.toNat := by rw [byte_val, hw]; omega
    rw [Symbol.nameLoop, if_pos (by omega), hbyte, Char.ofNat_toNat,
      nameLoop_ofDigits cs f _ (by simpa using hl) (fun c h => hc c (List.mem_cons_of_mem _ h))
        (by rw [U64.shiftRight_eight_val, hw]; omega)]

theorem name_ne_nul {c : Char} (h : 65 ≤ c.toNat ∧ c.toNat ≤ 90) : c ≠ Char.ofNat 0 := by
  rintro rfl
  simp at h

/-- **Packing the name back.**  `string_to_symbol` of a valid value's decimals and name rebuilds
the value. -/
theorem stringToSymbol_name {v : U64} (h : Symbol.validName (Symbol.name v) = true) :
    stringToSymbol (Symbol.decimals v) (Symbol.name v) = .ok v := by
  have hv := v.isLt
  have htw : (Symbol.name v).takeWhile (· ≠ Char.ofNat 0) = Symbol.name v :=
    List.takeWhile_eq_self_iff.mpr fun c hc => decide_eq_true (name_ne_nul (Symbol.validName_iff.mp h c hc))
  obtain ⟨r, hr, hrv⟩ := stringToSymbolLoop_eq (Symbol.name v) 0 0
    (by have := length_nameLoop 7 (v >>> 8); rw [Symbol.name]; omega) (by simp) h
  rw [Symbol.name, ofDigits_nameLoop 7 _ (by rw [U64.shiftRight_eight_val]; omega),
    U64.shiftRight_eight_val] at hrv
  rw [stringToSymbol, htw, hr]
  refine congrArg Except.ok (Fin.ext ?_)
  have hrv' : r.val = v.val / 256 * 2 ^ 8 := by simpa using hrv
  rw [U64.or_val, hrv', Symbol.decimals_val, toUnsigned_val_nat (by omega), Nat.or_comm,
    or_mul_two_pow (by omega)]
  omega

/-! ### Names that do not fit -/

/-- The loop only ORs bits in. -/
theorem stringToSymbolLoop_testBit : ∀ (cs : List Char) (i : Nat) (acc r : U64),
    stringToSymbolLoop cs i acc = .ok r → ∀ k, acc.val.testBit k = true → r.val.testBit k = true
  | [], _, _, _, h => by cases h; exact fun _ => id
  | c :: cs, i, acc, r, h => by
    rw [stringToSymbolLoop, symbolAssert_bind] at h
    split at h
    · exact fun k hk => stringToSymbolLoop_testBit cs _ _ r h k (by simp [hk])
    · cases h

/-- **A name of eight characters or more runs into the decimals byte.**  The character at index 7
is shifted by `8 * 8`, taken mod 64, so it is ORed into byte 0 and sets the bit of 64 there. -/
theorem stringToSymbolLoop_long : ∀ (cs : List Char) (i : Nat) (acc r : U64), i ≤ 7 → 8 ≤ i + cs.length →
    stringToSymbolLoop cs i acc = .ok r → r.val.testBit 6 = true
  | [], i, _, _, hi, hl, _ => by simp at hl; omega
  | c :: cs, i, acc, r, hi, hl, h => by
    rw [stringToSymbolLoop, symbolAssert_bind] at h
    split at h
    · next hup =>
      rcases Nat.lt_or_ge i 7 with hi7 | hi7
      · exact stringToSymbolLoop_long cs (i + 1) _ r (by omega) (by simp at hl; omega) h
      · obtain rfl : i = 7 := by omega
        have hc := upper_iff.mp hup
        refine stringToSymbolLoop_testBit cs _ _ r h 6 ?_
        rw [U64.or_val, Nat.testBit_or, shl64_val, toUnsigned_val_nat (by omega),
          show 8 * (7 + 1) % 64 = 0 from rfl, Nat.pow_zero, Nat.mul_one, Nat.mod_eq_of_lt (by omega),
          upper_testBit hc, Bool.or_true]
    · cases h

/-- A loop that returns has checked every character. -/
theorem stringToSymbolLoop_validName : ∀ {cs : List Char} {i : Nat} {acc r : U64},
    stringToSymbolLoop cs i acc = .ok r → Symbol.validName cs = true
  | [], _, _, _, _ => rfl
  | c :: cs, i, acc, r, h => by
    rw [stringToSymbolLoop, symbolAssert_bind] at h
    split at h
    · next hup => exact Symbol.validName_cons.mpr ⟨hup, stringToSymbolLoop_validName h⟩
    · cases h

/-- **What a valid packed value holds.**  When `string_to_symbol(p, str)` returns a valid value,
the name it read (up to the first NUL) has at most seven characters, the decimals are `p` and
`name()` gives that name back. -/
theorem stringToSymbol_valid {p : U8} {str : List Char} {v : U64} (h : stringToSymbol p str = .ok v)
    (hv : Symbol.valid v = true) :
    (str.takeWhile (· ≠ Char.ofNat 0)).length ≤ 7 ∧ Symbol.decimals v = p ∧
      Symbol.name v = str.takeWhile (· ≠ Char.ofNat 0) := by
  set cs := str.takeWhile (· ≠ Char.ofNat 0)
  have hp := p.isLt
  obtain ⟨r, hr, rfl⟩ : ∃ r, stringToSymbolLoop cs 0 0 = .ok r ∧ r ||| toUnsigned 64 p.val = v := by
    unfold stringToSymbol at h
    cases hr : stringToSymbolLoop cs 0 0 with
    | error e => rw [hr] at h; cases h
    | ok r => rw [hr] at h; cases h; exact ⟨r, rfl, rfl⟩
  rw [Symbol.valid_iff, Symbol.decimals_val] at hv
  have hlen : cs.length ≤ 7 := by
    by_contra hl
    have hbit := stringToSymbolLoop_long cs 0 0 r (by omega) (by omega) hr
    have : ((r ||| toUnsigned 64 p.val).val % 2 ^ 8).testBit 6 = true := by
      rw [Nat.testBit_mod_two_pow, U64.or_val, Nat.testBit_or, hbit]; rfl
    have := Nat.testBit_implies_ge this
    simp only [maxPrecision] at hv
    omega
  obtain ⟨r', hr', hrv⟩ := stringToSymbolLoop_eq cs 0 0 (by omega) (by simp) (stringToSymbolLoop_validName hr)
  rw [hr] at hr'
  cases hr'
  have hval : (r ||| toUnsigned 64 p.val).val = p.val + Nat.ofDigits 256 (cs.map Char.toNat) * 256 := by
    rw [U64.or_val, toUnsigned_val_nat (by omega), hrv, Nat.or_comm]
    simpa using or_mul_two_pow hp (Nat.ofDigits 256 (cs.map Char.toNat))
  refine ⟨hlen, Fin.ext (by rw [Symbol.decimals_val, hval]; omega), ?_⟩
  refine nameLoop_ofDigits cs 7 _ hlen (fun c hc => ?_) (by rw [U64.shiftRight_eight_val, hval]; omega)
  have := Symbol.validName_iff.mp (stringToSymbolLoop_validName hr) c hc
  omega

/-! ### `symbol_code` -/

theorem ofValue_eq_ok {v : U64} {s : Symbol} (h : Symbol.ofValue v = .ok s) : s.value = v := by
  unfold Symbol.ofValue at h
  split at h
  · cases h; rfl
  · cases h

theorem shl64_eight_val (x : U64) : (shl64 x 8).val = x.val * 256 % 2 ^ 64 := shl64_val x 8

/-- **A `symbol_code` through its variant loses its top byte.**  When `fc::to_variant(c)` returns
a text, `fc::from_variant` of that text returns the code with the top byte of `c` cleared: the
round trip is the identity exactly on the codes below `2^56`. -/
theorem fromVariant_toVariant {c : SymbolCode} {t : List Char} (h : c.toVariant = .ok t) :
    ∃ c', SymbolCode.fromVariant t = .ok c' ∧ c'.value.val = c.value.val % 2 ^ 56 ∧
      (c' = c ↔ c.value.val < 2 ^ 56) := by
  obtain ⟨cv⟩ := c
  dsimp only
  unfold SymbolCode.toVariant at h
  cases hs : Symbol.ofValue (shl64 cv 8) with
  | error e => rw [hs] at h; cases h
  | ok s =>
    rw [hs] at h
    cases h
    have hw := ofValue_eq_ok hs
    have hc := cv.isLt
    have hval : (s.value >>> 8).val = cv.val % 2 ^ 56 := by
      rw [U64.shiftRight_eight_val, hw, shl64_eight_val]; omega
    have hdec : Symbol.decimals s.value = 0 := Fin.ext (by
      show (Symbol.decimals s.value).val = 0
      rw [Symbol.decimals_val, hw, shl64_eight_val]; omega)
    refine ⟨⟨s.value >>> 8⟩, ?_, hval, ⟨fun h => ?_, fun h => ?_⟩⟩
    · unfold SymbolCode.fromVariant Symbol.ofString
      rw [← hdec, stringToSymbol_name (Symbol.valid_iff.mp s.value_valid).2]
      dsimp only [bind, Except.bind]
      rw [dif_pos s.value_valid]; rfl
    · have := congrArg (fun c : SymbolCode => c.value.val) h
      simp only [hval] at this
      omega
    · exact congrArg SymbolCode.mk (Fin.ext (by rw [hval]; omega))

/-- A code with `1` in its top byte: its variant is the empty name, read back as code `0`. -/
theorem fromVariant_toVariant_sample :
    SymbolCode.toVariant ⟨72057594037927936⟩ = .ok [] ∧
      ∃ c', SymbolCode.fromVariant [] = .ok c' ∧ c'.value.val = 72057594037927936 % 2 ^ 56 ∧
        (c' = ⟨72057594037927936⟩ ↔ 72057594037927936 < 2 ^ 56) :=
  have h : SymbolCode.toVariant ⟨72057594037927936⟩ = .ok [] := rfl
  ⟨h, fromVariant_toVariant h⟩

end Gstio
