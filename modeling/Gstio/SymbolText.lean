import Gstio.Symbol

/-!
# Gstio.SymbolText — the text form of a `symbol`

`to_string` writes a symbol as its decimals, a comma and its name; `from_string` trims a text,
splits it at its first comma, reads the decimals with `fc::to_int64` into a `uint8_t` and packs
the name with `string_to_symbol`.

* `TextFns.Lawful` — what is asked of the text helpers: `to_string` writes decimal, `to_int64`
  reads it back, `trim` keeps a text with no white space at its ends; `TextFns.ref` has it;
* `fromString_toString` — `from_string(s.to_string())` is `s`, for every valid symbol;
* `fromString_accepts` — a text `from_string` accepts is `P ',' N` after trimming, and the symbol
  has the decimals `to_int64(P)` mod 256 (the `uint8_t` they are stored in) and the name `N` up
  to its first NUL;
* `fromString_unfaithful` — so `260,GST` is read with 4 decimals and `4,A<NUL>B` with the name
  `A`, and a `symbol_code` with a top byte does not survive its variant.
-/

namespace Gstio

/-! ### Decimal numerals -/

theorem digitChar_range : ∀ d < 10,
    48 ≤ (Nat.digitChar d).toNat ∧ (Nat.digitChar d).toNat ≤ 57 ∧ (Nat.digitChar d).toNat - 48 = d := by
  decide

theorem toDigitsCore_digits : ∀ (f n : Nat) (ds : List Char) (c : Char), c ∈ Nat.toDigitsCore 10 f n ds →
    (48 ≤ c.toNat ∧ c.toNat ≤ 57) ∨ c ∈ ds
  | 0, _, _, _, h => .inr h
  | f + 1, n, ds, c, h => by
    have hd := digitChar_range (n % 10) (Nat.mod_lt _ (by omega))
    have hcons : c ∈ Nat.digitChar (n % 10) :: ds → (48 ≤ c.toNat ∧ c.toNat ≤ 57) ∨ c ∈ ds := by
      rw [List.mem_cons]; rintro (rfl | h)
      exacts [.inl ⟨hd.1, hd.2.1⟩, .inr h]
    rw [Nat.toDigitsCore] at h
    split at h
    · exact hcons h
    · exact (toDigitsCore_digits f _ _ c h).elim .inl hcons

/-- A decimal numeral has only digits. -/
theorem toDigits_digits (n : Nat) : ∀ c ∈ Nat.toDigits 10 n, 48 ≤ c.toNat ∧ c.toNat ≤ 57 := fun c h =>
  (toDigitsCore_digits _ _ _ c h).resolve_right (List.not_mem_nil _)

/-- One digit of a decimal numeral read from the left; `none` once a non-digit is met. -/
def decimalStep : Option Nat → Char → Option Nat
  | some n, c => if 48 ≤ c.toNat ∧ c.toNat ≤ 57 then some (10 * n + (c.toNat - 48)) else none
  | none, _ => none

/-- A decimal numeral without sign. -/
def readDecimal (t : List Char) : Option Nat := if t = [] then none else t.foldl decimalStep (some 0)

/-- Reading a numeral back: the digits `toDigitsCore` puts in front of `ds` read as `n`. -/
theorem foldl_decimalStep_toDigitsCore : ∀ (f n : Nat) (ds : List Char), n < f →
    (Nat.toDigitsCore 10 f n ds).foldl decimalStep (some 0) = ds.foldl decimalStep (some n)
  | 0, _, _, h => absurd h (Nat.not_lt_zero _)
  | f + 1, n, ds, h => by
    have hd := digitChar_range (n % 10) (Nat.mod_lt _ (by omega))
    have hstep : ∀ m, decimalStep (some m) (Nat.digitChar (n % 10)) = some (10 * m + n % 10) := fun m => by
      rw [decimalStep, if_pos ⟨hd.1, hd.2.1⟩, hd.2.2]
    rw [Nat.toDigitsCore]
    split
    · rw [List.foldl_cons, hstep]; congr 2; omega
    · rw [foldl_decimalStep_toDigitsCore f (n / 10) _ (by omega), List.foldl_cons, hstep]
      congr 2; omega

/-! ### The text helpers -/

/-- A visible ASCII character, `'!'..'~'`: no `trim` removes one. -/
def visibleChar (c : Char) : Bool := 33 ≤ c.toNat && c.toNat ≤ 126

/-- What the symbol texts ask of the helpers: `to_string` writes a number in decimal,
`fc::to_int64` reads such a numeral back when it fits in `int64_t`, and `fc::trim` keeps a text
that starts and ends with a visible character. -/
structure TextFns.Lawful (F : TextFns) : Prop where
  toString_eq : ∀ n, F.toString n = Nat.toDigits 10 n
  toInt64_toString : ∀ n : Nat, n < 2 ^ 63 → (F.toInt64 (F.toString n)).map I64.val = some (n : Int)
  trim_eq : ∀ s : List Char, (∀ c ∈ s.head?, visibleChar c = true) → (∀ c ∈ s.getLast?, visibleChar c = true) →
    F.trim s = s

theorem TextFns.Lawful.toInt64_toDigits {F : TextFns} (hF : F.Lawful) {n : Nat} (h : n < 2 ^ 63) :
    ∃ x, F.toInt64 (Nat.toDigits 10 n) = some x ∧ x.val = n :=
  Option.map_eq_some'.mp (hF.toString_eq n ▸ hF.toInt64_toString n h)

/-- Text helpers to run the model with: `trim` drops white space at both ends, `to_int64` reads a
decimal numeral, possibly negated, within `int64_t`, and `to_string` writes decimal. -/
def TextFns.ref : TextFns where
  trim s := ((s.dropWhile Char.isWhitespace).reverse.dropWhile Char.isWhitespace).reverse
  toInt64 t := match t with
    | '-' :: t => (readDecimal t).bind fun n => if n ≤ 2 ^ 63 then some (I64.ofInt (-n)) else none
    | t => (readDecimal t).bind fun n => if n < 2 ^ 63 then some (I64.ofInt n) else none
  toString := Nat.toDigits 10

theorem isWhitespace_of_visible {c : Char} (h : visibleChar c = true) : c.isWhitespace = false := by
  simp only [visibleChar, Bool.and_eq_true, decide_eq_true_eq] at h
  simp only [Char.isWhitespace, Bool.or_eq_false_iff, decide_eq_false_iff_not]
  refine ⟨⟨⟨?_, ?_⟩, ?_⟩, ?_⟩ <;> rintro rfl <;> simp at h

theorem dropWhile_isWhitespace {s : List Char} (h : ∀ c ∈ s.head?, visibleChar c = true) :
    s.dropWhile Char.isWhitespace = s := by
  cases s with
  | nil => rfl
  | cons c t => exact List.dropWhile_cons_of_neg (by simp [isWhitespace_of_visible (h c rfl)])

theorem TextFns.ref_lawful : TextFns.ref.Lawful where
  toString_eq _ := rfl
  toInt64_toString n h := by
    have hp := foldl_decimalStep_toDigitsCore (n + 1) n [] (by omega)
    have hdig := toDigits_digits n
    change (TextFns.ref.toInt64 (Nat.toDigits 10 n)).map I64.val = some (n : Int)
    change (Nat.toDigits 10 n).foldl decimalStep (some 0) = some n at hp
    cases ht : Nat.toDigits 10 n with
    | nil =>
      rw [ht] at hp
      cases hp
      exact absurd ht (by decide)
    | cons c rest =>
      rw [ht] at hp hdig
      have hc : c ≠ '-' := fun h => by have := hdig c (List.mem_cons_self _ _); rw [h] at this; simp at this
      have hread : readDecimal (c :: rest) = some n := by rw [readDecimal, if_neg (List.cons_ne_nil _ _), hp]
      simp only [TextFns.ref]
      split
      · next heq => cases heq; exact absurd rfl hc
      · rw [hread, Option.some_bind, if_pos h, Option.map_some', I64.ofInt_val]
        exact congrArg some (by omega)
  trim_eq s hh hl := by
    show ((s.dropWhile Char.isWhitespace).reverse.dropWhile Char.isWhitespace).reverse = s
    rw [dropWhile_isWhitespace hh, dropWhile_isWhitespace (by rwa [List.head?_reverse]), List.reverse_reverse]

/-! ### The round trip -/

/-- `from_string` of a text that trims to the numeral of `n`, a comma and `N`: the precision is `n`
narrowed to `uint8_t`, and `N` is packed. -/
theorem fromString_of_trim {F : TextFns} (hF : F.Lawful) {t N : List Char} {n : Nat} (hn : n < 2 ^ 63)
    (ht : F.trim t = Nat.toDigits 10 n ++ ',' :: N) :
    Symbol.fromString F t =
      (symbolAssert ((toUnsigned 8 (n : Int)).val ≤ maxPrecision) "precision ${p} should be <= 18" >>= fun _ =>
        stringToSymbol (toUnsigned 8 (n : Int)) N >>= Symbol.ofValue) := by
  obtain ⟨x, hx, hxv⟩ := hF.toInt64_toDigits hn
  have hcomma : ∀ c ∈ Nat.toDigits 10 n, decide (c ≠ ',') = true := fun c hc =>
    decide_eq_true fun h => by have := toDigits_digits n c hc; rw [h] at this; simp at this
  have hne : ¬ decide ((',' : Char) ≠ ',') = true := by decide
  rw [Symbol.fromString, ht]
  simp only [List.dropWhile_append_of_pos hcomma, List.takeWhile_append_of_pos hcomma,
    List.dropWhile_cons_of_neg (p := fun c => decide (c ≠ ',')) hne,
    List.takeWhile_cons_of_neg (p := fun c => decide (c ≠ ',')) hne, List.append_nil, hx, hxv,
    symbolAssert_bind, if_pos (List.append_ne_nil_of_right_ne_nil _ (List.cons_ne_nil _ _))]
  rfl

/-- **`from_string` undoes `to_string`** on every valid symbol, whatever text helpers are used,
as long as they have the contract of `TextFns.Lawful`. -/
theorem fromString_toString (F : TextFns) (hF : F.Lawful) (s : Symbol) :
    Symbol.fromString F (s.toString F) = .ok s := by
  obtain ⟨v, hv⟩ := s
  have hvalid := Symbol.valid_iff.mp hv
  have hupN := Symbol.validName_iff.mp hvalid.2
  have hdig := toDigits_digits (Symbol.decimals v).val
  have hvis : ∀ c ∈ Nat.toDigits 10 (Symbol.decimals v).val ++ ',' :: Symbol.name v, visibleChar c = true := by
    intro c hc
    simp only [visibleChar, Bool.and_eq_true, decide_eq_true_eq]
    rcases List.mem_append.mp hc with hc | hc
    · have := hdig c hc; omega
    · rcases List.mem_cons.mp hc with rfl | hc
      · decide
      · have := hupN c hc; omega
  have hp : toUnsigned 8 ((Symbol.decimals v).val : Int) = Symbol.decimals v := Fin.ext (by
    have := (Symbol.decimals v).isLt; rw [toUnsigned_val]; omega)
  rw [Symbol.toString, hF.toString_eq, fromString_of_trim hF (by omega) (hF.trim_eq _
    (fun c hc => hvis c (List.mem_of_mem_head? hc)) (fun c hc => hvis c (List.mem_of_mem_getLast? hc))),
    hp, symbolAssert_bind, if_pos hvalid.1, stringToSymbol_name hvalid.2]
  exact dif_pos hv

/-- The symbol `4,GST`. -/
def gst4 : Symbol := ⟨1414743812, by decide⟩

theorem fromString_toString_sample :
    TextFns.ref.Lawful ∧ gst4.toString TextFns.ref = "4,GST".toList ∧
      Symbol.fromString TextFns.ref (gst4.toString TextFns.ref) = .ok gst4 :=
  ⟨TextFns.ref_lawful, by decide, fromString_toString _ TextFns.ref_lawful gst4⟩

/-! ### What `from_string` accepts -/

theorem head_dropWhile_comma {s N : List Char} {c : Char} (h : s.dropWhile (· ≠ ',') = c :: N) : c = ',' := by
  have := List.head_dropWhile_not (fun c => decide (c ≠ ',')) s (by rw [h]; exact List.cons_ne_nil _ _)
  simpa only [h, List.head_cons, decide_eq_false_iff_not, not_not] using this

/-- **What `from_string` accepts.**  A text it reads is, once trimmed, `P ',' N` with no comma in
`P`, and `fc::to_int64(P)` returns some `n`.  The symbol's decimals are `n` mod 256, the
`uint8_t` they are stored in, and its name is `N` up to its first NUL. -/
theorem fromString_accepts {F : TextFns} {text : List Char} {s : Symbol} (h : Symbol.fromString F text = .ok s) :
    ∃ P N n, F.trim text = P ++ ',' :: N ∧ (∀ c ∈ P, c ≠ ',') ∧ F.toInt64 P = some n ∧
      (Symbol.decimals s.value).val = (n.val % 256).toNat ∧
      Symbol.name s.value = N.takeWhile (· ≠ Char.ofNat 0) := by
  unfold Symbol.fromString at h
  rw [symbolAssert_bind] at h
  split at h
  case isFalse => cases h
  split at h
  case h_1 => cases h
  next c N hdrop =>
  obtain rfl := head_dropWhile_comma hdrop
  split at h
  case h_2 => cases h
  next n hn =>
  dsimp only [bind, Except.bind] at h
  split at h
  case h_1 => cases h
  cases hv : stringToSymbol (toUnsigned 8 n.val) N with
  | error e => rw [hv] at h; cases h
  | ok v =>
    rw [hv] at h
    have hs := ofValue_eq_ok h
    obtain ⟨-, hdec, hname⟩ := stringToSymbol_valid hv (hs ▸ s.value_valid)
    refine ⟨_, N, n, ?_, fun c hc => by simpa using List.mem_takeWhile_imp hc, hn, ?_, hs ▸ hname⟩
    · rw [← hdrop, List.takeWhile_append_dropWhile]
    · rw [hs, hdec, toUnsigned_val]; rfl

theorem fromString_accepts_sample :
    Symbol.fromString TextFns.ref "4,GST".toList = .ok gst4 ∧
      ∃ P N n, TextFns.ref.trim "4,GST".toList = P ++ ',' :: N ∧ (∀ c ∈ P, c ≠ ',') ∧
        TextFns.ref.toInt64 P = some n ∧ (Symbol.decimals gst4.value).val = (n.val % 256).toNat ∧
        Symbol.name gst4.value = N.takeWhile (· ≠ Char.ofNat 0) :=
  have h : Symbol.fromString TextFns.ref "4,GST".toList = .ok gst4 := rfl
  ⟨h, fromString_accepts h⟩

/-! ### Texts read unfaithfully -/

/-- **`from_string` and the `symbol_code` variant are not faithful.**  For any text helpers with
the contract of `TextFns.Lawful`: `260,GST` is accepted, its precision narrowed to the `uint8_t`
4; `4,A<NUL>B` is accepted with the name `A`, the name being read as a C string; and the code
`2^56`, whose name byte is the top byte, goes to the empty name and comes back as 0. -/
theorem fromString_unfaithful (F : TextFns) (hF : F.Lawful) :
    (∃ s, Symbol.fromString F "260,GST".toList = .ok s ∧ (Symbol.decimals s.value).val = 4 ∧
      Symbol.name s.value = "GST".toList) ∧
    (∃ s, Symbol.fromString F ['4', ',', 'A', Char.ofNat 0, 'B'] = .ok s ∧ Symbol.name s.value = ['A']) ∧
    SymbolCode.toVariant ⟨72057594037927936⟩ = .ok [] ∧ SymbolCode.fromVariant [] = .ok ⟨0⟩ := by
  refine ⟨⟨⟨1414743812, by decide⟩, ?_, by decide, by decide⟩, ⟨⟨16644, by decide⟩, ?_, by decide⟩, rfl, rfl⟩
  · rw [fromString_of_trim hF (n := 260) (N := "GST".toList) (by omega)
      ((hF.trim_eq _ (by decide) (by decide)).trans (by decide))]
    rfl
  · rw [fromString_of_trim hF (n := 4) (N := ['A', Char.ofNat 0, 'B']) (by omega)
      ((hF.trim_eq _ (by decide) (by decide)).trans (by decide))]
    rfl

theorem fromString_unfaithful_sample :
    TextFns.ref.Lawful ∧
      ((∃ s, Symbol.fromString TextFns.ref "260,GST".toList = .ok s ∧ (Symbol.decimals s.value).val = 4 ∧
        Symbol.name s.value = "GST".toList) ∧
      (∃ s, Symbol.fromString TextFns.ref ['4', ',', 'A', Char.ofNat 0, 'B'] = .ok s ∧
        Symbol.name s.value = ['A']) ∧
      SymbolCode.toVariant ⟨72057594037927936⟩ = .ok [] ∧ SymbolCode.fromVariant [] = .ok ⟨0⟩) :=
  ⟨TextFns.ref_lawful, fromString_unfaithful _ TextFns.ref_lawful⟩

end Gstio
