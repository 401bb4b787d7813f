import SchemaSynth.Annotations
import SchemaSynth.Proofs.Number.Whole
import SchemaSynth.Proofs.Text.Blank

/-!
# What the text of a tag stands for

A text is a number if it is written as a `Numeral`: digits of any script make the form of a number,
but only ASCII digits have a value (`number?_text`, `exists_numeral`).
`coerce_loses_only_overflow` says what every text stands for. The one kind of text that is lost is a
numeral with a value beyond binary64.
-/

namespace SchemaSynth

namespace TagText

open Text Binary64

/-- The sign before a number. -/
inductive Sign where
  | none
  | plus
  | minus
deriving DecidableEq, Repr

def Sign.text : Sign → List Char
  | .none => []
  | .plus => ['+']
  | .minus => ['-']

/-- A signed decimal number as it is written: a sign or none, ASCII digits, and perhaps a point and
more of them. -/
structure Numeral where
  sign : Sign
  whole : List Char
  /-- The digits behind the point. Without them there is no point. -/
  fraction : List Char
  whole_ne_nil : whole ≠ []
  isDigit : ∀ c ∈ whole ++ fraction, c.isDigit = true

namespace Numeral

/-- The point and the digits behind it. -/
def tail (n : Numeral) : List Char := if n.fraction = [] then [] else '.' :: n.fraction

def text (n : Numeral) : List Char := n.sign.text ++ (n.whole ++ n.tail)

def negative (n : Numeral) : Bool := n.sign == .minus

/-- The number that the digits stand for without the point. -/
def digits (n : Numeral) : Nat := Nat.ofDigitChars 10 (n.whole ++ n.fraction) 0

def value (n : Numeral) : ℚ := signed n.negative (n.digits / tenTo n.fraction.length)

end Numeral

/-! ## Digits -/

section

variable {cs : List Char} {c : Char}

def digitValues (cs : List Char) : List Nat := cs.map fun c => c.toNat - '0'.toNat

theorem digitValue?_eq_some_iff {d : Nat} :
    digitValue? c = some d ↔ c.isDigit = true ∧ d = c.toNat - '0'.toNat := by
  unfold digitValue?
  split
  · next h => exact ⟨fun hd => ⟨h, (Option.some.inj hd).symm⟩, fun hd => congrArg some hd.2.symm⟩
  · next h => simp [h]

/-- Only ASCII digits have a value. -/
theorem digitValues?_eq_some_iff {values : List Nat} :
    digitValues? cs = some values ↔
      (∀ c ∈ cs, c.isDigit = true) ∧ values = digitValues cs := by
  unfold digitValues? digitValues
  induction cs generalizing values with
  | nil => exact ⟨fun h => ⟨by simp, (Option.some.inj h).symm⟩, fun h => congrArg some h.2.symm⟩
  | cons c cs ih =>
    simp only [List.mapM_cons, Option.bind_eq_bind, Option.bind_eq_some_iff,
      digitValue?_eq_some_iff, ih, List.forall_mem_cons, List.map_cons]
    constructor
    · rintro ⟨d, ⟨hc, rfl⟩, ds, ⟨hcs, rfl⟩, h⟩
      exact ⟨⟨hc, hcs⟩, (Option.some.inj h).symm⟩
    · rintro ⟨⟨hc, hcs⟩, rfl⟩
      exact ⟨_, ⟨hc, rfl⟩, _, ⟨hcs, rfl⟩, rfl⟩

theorem ofDigits_digitValues (cs : List Char) :
    ofDigits (digitValues cs) = Nat.ofDigitChars 10 cs 0 := by
  unfold ofDigits digitValues
  rw [List.foldl_map, Nat.ofDigitChars_eq_foldl]
  simp only [Nat.mul_comm]

theorem toNat_of_isDigit (h : c.isDigit = true) : 48 ≤ c.toNat ∧ c.toNat ≤ 57 := by
  simpa [Char.isDigit, UInt32.le_iff_toNat_le] using h

theorem isDecimalDigit_of_isDigit (h : c.isDigit = true) : isDecimalDigit c = true := by
  have hrange := toNat_of_isDigit h
  refine List.any_eq_true.2 ⟨0x30, by simp [digitZeros], ?_⟩
  simp only [Bool.and_eq_true, decide_eq_true_eq]
  omega

theorem isBlank_of_isDigit (h : c.isDigit = true) : isBlank c = false := by
  have hrange := toNat_of_isDigit h
  simp only [isBlank, Bool.or_eq_false_iff, Bool.and_eq_false_iff, beq_eq_false_iff_ne,
    decide_eq_false_iff_not]
  omega

end

/-! ## Parts of a numeral -/

section

variable {cs whole fraction : List Char}

theorem splitSign_text (n : Numeral) : splitSign n.text = (n.negative, n.whole ++ n.tail) := by
  obtain ⟨sign, whole, fraction, hne, hdigit⟩ := n
  cases sign with
  | plus => rfl
  | minus => rfl
  | none =>
    obtain ⟨c, rest, rfl⟩ := List.exists_cons_of_ne_nil hne
    have hc : c.isDigit = true := hdigit c (by simp)
    show splitSign (c :: _) = _
    unfold splitSign
    split
    · next h =>
      cases h
      exact absurd hc (by decide)
    · next h =>
      cases h
      exact absurd hc (by decide)
    · rfl

theorem exists_sign (cs : List Char) :
    ∃ sign : Sign, cs = sign.text ++ (splitSign cs).2 := by
  unfold splitSign
  split
  · exact ⟨.minus, rfl⟩
  · exact ⟨.plus, rfl⟩
  · exact ⟨.none, rfl⟩

theorem takeWhile_numeral (n : Numeral) :
    (n.whole ++ n.tail).takeWhile isDecimalDigit = n.whole ∧
      (n.whole ++ n.tail).dropWhile isDecimalDigit = n.tail := by
  have hwhole : ∀ c ∈ n.whole, isDecimalDigit c = true := fun c hc =>
    isDecimalDigit_of_isDigit (n.isDigit c (List.mem_append_left _ hc))
  have htail : n.tail.takeWhile isDecimalDigit = [] ∧ n.tail.dropWhile isDecimalDigit = n.tail := by
    have point : isDecimalDigit '.' = false := by decide
    unfold Numeral.tail
    split <;> simp [point]
  rw [List.takeWhile_append_of_pos hwhole, List.dropWhile_append_of_pos hwhole, htail.1, htail.2]
  exact ⟨List.append_nil _, rfl⟩

theorem splitDecimal?_numeral (n : Numeral) :
    splitDecimal? (n.whole ++ n.tail) = some (n.whole, n.fraction) := by
  have hfraction : n.fraction.all isDecimalDigit = true := List.all_eq_true.2 fun c hc =>
    isDecimalDigit_of_isDigit (n.isDigit c (List.mem_append_right _ hc))
  obtain ⟨htake, hdrop⟩ := takeWhile_numeral n
  unfold splitDecimal?
  rw [htake, hdrop]
  by_cases h : n.fraction = []
  · rw [Numeral.tail, if_pos h]
    simp [n.whole_ne_nil, h]
  · rw [Numeral.tail, if_neg h]
    simp [n.whole_ne_nil, h, hfraction]

theorem of_splitDecimal? (h : splitDecimal? cs = some (whole, fraction)) :
    whole ≠ [] ∧ cs = whole ++ if fraction = [] then [] else '.' :: fraction := by
  have cut := List.takeWhile_append_dropWhile (p := isDecimalDigit) (l := cs)
  unfold splitDecimal? at h
  dsimp only at h
  split at h
  · next hrest =>
    split at h
    · cases h
    · next hne =>
      cases h
      rw [hrest] at cut
      exact ⟨by simpa using hne, cut.symm⟩
  · next hrest =>
    split at h
    · cases h
    · next hne =>
      cases h
      simp only [Bool.or_eq_true, List.isEmpty_iff, not_or] at hne
      rw [hrest] at cut
      rw [if_neg hne.1.2]
      exact ⟨hne.1.1, cut.symm⟩
  · cases h

/-- A numeral is read as the number that it is written for, rounded once. -/
theorem number?_text (n : Numeral) :
    number? n.text = some (match round? n.negative n.digits (tenTo n.fraction.length) with
      | some x => .number (Number.preferInt x)
      | none => .null) := by
  obtain ⟨hwhole, hfraction⟩ := List.forall_mem_append.1 n.isDigit
  have digits : ofDigits (digitValues n.whole ++ digitValues n.fraction) = n.digits := by
    unfold digitValues
    rw [← List.map_append]
    exact ofDigits_digitValues _
  have places : (digitValues n.fraction).length = n.fraction.length := List.length_map _
  unfold number?
  rw [splitSign_text]
  dsimp only
  rw [splitDecimal?_numeral, Option.bind_eq_bind, Option.bind_some]
  dsimp only
  rw [digitValues?_eq_some_iff.2 ⟨hwhole, rfl⟩,
    digitValues?_eq_some_iff.2 ⟨hfraction, rfl⟩, ← digits, ← places]
  rfl

/-- Every text that is read as a number is a numeral. -/
theorem exists_numeral {v : Json} (h : number? cs = some v) : ∃ n : Numeral, cs = n.text := by
  unfold number? at h
  simp only [Option.bind_eq_bind, Option.bind_eq_some_iff] at h
  obtain ⟨⟨whole, fraction⟩, hsplit, ws, hws, fs, hfs, -⟩ := h
  obtain ⟨sign, hcs⟩ := exists_sign cs
  obtain ⟨hne, hunsigned⟩ := of_splitDecimal? hsplit
  have hdigits : ∀ c ∈ whole ++ fraction, c.isDigit = true :=
    List.forall_mem_append.2
      ⟨(digitValues?_eq_some_iff.1 hws).1, (digitValues?_eq_some_iff.1 hfs).1⟩
  exact ⟨⟨sign, whole, fraction, hne, hdigits⟩,
    hcs.trans (congrArg (sign.text ++ ·) hunsigned)⟩

end

/-! ## Words and numbers -/

section

variable {cs : List Char}

theorem ofList_eq_iff {word : String} : String.ofList cs = word ↔ cs = word.toList := by
  rw [← String.toList_inj, String.toList_ofList]

theorem exists_isDigit_mem_text (n : Numeral) : ∃ c ∈ n.text, c.isDigit = true := by
  obtain ⟨c, rest, h⟩ := List.exists_cons_of_ne_nil n.whole_ne_nil
  refine ⟨c, ?_, n.isDigit c (by simp [h])⟩
  simp [Numeral.text, h]

theorem text_ne_of_no_digit (n : Numeral) {word : List Char} (h : word.any Char.isDigit = false) :
    n.text ≠ word := by
  rintro rfl
  obtain ⟨c, hmem, hc⟩ := exists_isDigit_mem_text n
  exact absurd hc (List.any_eq_false.1 h c hmem)

theorem coerceTrimmed_of_ne (hnil : cs ≠ []) (htrue : cs ≠ "true".toList)
    (hfalse : cs ≠ "false".toList) :
    coerceTrimmed cs = (number? cs).getD (.string (String.ofList cs)) := by
  unfold coerceTrimmed
  dsimp only
  rw [if_neg (by simpa [ofList_eq_iff, hnil] using htrue), if_neg (mt ofList_eq_iff.1 hfalse)]

theorem coerceTrimmed_text (n : Numeral) :
    coerceTrimmed n.text = match round? n.negative n.digits (tenTo n.fraction.length) with
      | some x => .number (Number.preferInt x)
      | none => .null := by
  rw [coerceTrimmed_of_ne (text_ne_of_no_digit n rfl) (text_ne_of_no_digit n (by decide))
    (text_ne_of_no_digit n (by decide)), number?_text]
  rfl

theorem abs_value_numeral (n : Numeral) : |n.value| = n.digits / tenTo n.fraction.length :=
  abs_signed_div _ _ _

theorem coerceTrimmed_of_lt {n : Numeral} (h : |n.value| < limit) :
    ∃ x : Binary64, x.Nearest n.value ∧ coerceTrimmed n.text = .number (Number.preferInt x) := by
  rw [abs_value_numeral] at h
  obtain ⟨x, hx, nearest⟩ := round?_of_lt n.negative (tenTo_pos _).ne' h
  refine ⟨x, nearest, ?_⟩
  rw [coerceTrimmed_text, hx]

theorem coerceTrimmed_of_le {n : Numeral} (h : limit ≤ |n.value|) :
    coerceTrimmed n.text = .null := by
  rw [abs_value_numeral] at h
  rw [coerceTrimmed_text, round?_of_le _ (tenTo_pos _).ne' h]

end

/-! ## Whole numerals -/

theorem trim_text (n : Numeral) : trim n.text = n.text := by
  refine trim_of_no_blank fun c hc => ?_
  have hdigit := n.isDigit
  simp only [Numeral.text, Numeral.tail, List.mem_append] at hc hdigit
  rcases hc with hsign | hwhole | htail
  · have blankless : n.sign.text.any isBlank = false := by cases n.sign <;> decide
    exact Bool.eq_false_iff.2 (List.any_eq_false.1 blankless c hsign)
  · exact isBlank_of_isDigit (hdigit c (.inl hwhole))
  · split at htail
    · cases htail
    · rcases List.mem_cons.1 htail with rfl | hfraction
      · decide
      · exact isBlank_of_isDigit (hdigit c (.inr hfraction))

theorem coerce_text (n : Numeral) :
    coerce (some (String.ofList n.text)) = coerceTrimmed n.text := by
  rw [coerce, Option.getD_some, String.toList_ofList, trim_text]

/-- A whole number in ASCII digits, behind a sign or none. -/
def Numeral.ofNat (sign : Sign) (n : Nat) : Numeral where
  sign := sign
  whole := Nat.toDigits 10 n
  fraction := []
  whole_ne_nil := Nat.toDigits_ne_nil
  isDigit := by
    intro c hc
    rw [List.append_nil] at hc
    exact Nat.isDigit_of_mem_toDigits (by decide) le_rfl hc

theorem ofList_text_ofNat (sign : Sign) (n : Nat) :
    String.ofList (Numeral.ofNat sign n).text = String.ofList sign.text ++ toString n := by
  rw [ofList_eq_iff, String.toList_append, String.toList_ofList]
  show sign.text ++ (Nat.toDigits 10 n ++ []) = sign.text ++ n.repr.toList
  rw [List.append_nil, Nat.toList_repr]

theorem value_ofNat (sign : Sign) (n : Nat) :
    (Numeral.ofNat sign n).value = signed (sign == .minus) n := by
  have digits : (Numeral.ofNat sign n).digits = n := by
    show Nat.ofDigitChars 10 (Nat.toDigits 10 n ++ []) 0 = n
    rw [List.append_nil, Nat.ofDigitChars_ten_toDigits]
  have places : tenTo (Numeral.ofNat sign n).fraction.length = 1 := rfl
  rw [Numeral.value, digits, places, Nat.cast_one, div_one]
  rfl

theorem coerce_toString_of_le {n : Nat} (h : twoTo 1024 ≤ n) :
    coerce (some (toString n)) = .null := by
  have hle : limit ≤ |(Numeral.ofNat .none n).value| := by
    rw [value_ofNat, abs_signed _ (Nat.cast_nonneg n)]
    exact limit_le_twoTo.trans (Nat.cast_le.2 h)
  have htext : String.ofList (Numeral.ofNat .none n).text = toString n :=
    (ofList_text_ofNat .none n).trans String.empty_append
  rw [← htext, coerce_text, coerceTrimmed_of_le hle]

/-! ## Every text -/

section

variable {cs : List Char}

/-- What a text without blanks at its ends stands for. -/
structure StandsFor (cs : List Char) (v : Json) : Prop where
  yes : cs = [] ∨ cs = "true".toList → v = .bool true
  no : cs = "false".toList → v = .bool false
  /-- A numeral stands for a finite number that no other in binary64 is nearer to its value than. -/
  number : ∀ n : Numeral, cs = n.text → |n.value| < limit →
    ∃ x : Binary64, x.Nearest n.value ∧ (Number.preferInt x).IsFinite ∧
      v = .number (Number.preferInt x)
  string : cs ≠ [] → cs ≠ "true".toList → cs ≠ "false".toList → (∀ n : Numeral, cs ≠ n.text) →
    v = .string (String.ofList cs)
  /-- Texts are lost only where a numeral has a value beyond binary64. -/
  null_iff : v = .null ↔ ∃ n : Numeral, cs = n.text ∧ limit ≤ |n.value|

theorem coerceTrimmed_yes (h : cs = [] ∨ cs = "true".toList) : coerceTrimmed cs = .bool true :=
  if_pos (by simpa [ofList_eq_iff] using h)

theorem coerceTrimmed_no (h : cs = "false".toList) : coerceTrimmed cs = .bool false := by
  subst h
  rfl

theorem coerceTrimmed_string (hnil : cs ≠ []) (htrue : cs ≠ "true".toList)
    (hfalse : cs ≠ "false".toList) (hnumeral : ∀ n : Numeral, cs ≠ n.text) :
    coerceTrimmed cs = .string (String.ofList cs) := by
  rw [coerceTrimmed_of_ne hnil htrue hfalse]
  cases h : number? cs with
  | none => rfl
  | some v =>
    obtain ⟨n, hn⟩ := exists_numeral h
    exact absurd hn (hnumeral n)

theorem exists_numeral_of_null (h : coerceTrimmed cs = .null) :
    ∃ n : Numeral, cs = n.text ∧ limit ≤ |n.value| := by
  by_cases hyes : cs = [] ∨ cs = "true".toList
  · rw [coerceTrimmed_yes hyes] at h
    cases h
  by_cases hno : cs = "false".toList
  · rw [coerceTrimmed_no hno] at h
    cases h
  obtain ⟨hnil, htrue⟩ := not_or.1 hyes
  by_cases hnumeral : ∃ n : Numeral, cs = n.text
  · obtain ⟨n, rfl⟩ := hnumeral
    refine ⟨n, rfl, not_lt.1 fun hlt => ?_⟩
    obtain ⟨x, -, hx⟩ := coerceTrimmed_of_lt hlt
    rw [hx] at h
    cases h
  · rw [coerceTrimmed_string hnil htrue hno fun n hn => hnumeral ⟨n, hn⟩] at h
    cases h

/-- Every text stands for something, but numerals with a value beyond binary64. -/
theorem coerce_loses_only_overflow (text : Option String) :
    StandsFor (trim (text.getD "").toList) (coerce text) where
  yes := coerceTrimmed_yes
  no := coerceTrimmed_no
  number := by
    intro n hn hlt
    obtain ⟨x, nearest, hx⟩ := coerceTrimmed_of_lt hlt
    refine ⟨x, nearest, Number.isFinite_preferInt nearest.isFinite, ?_⟩
    rw [coerce, hn, hx]
  string := coerceTrimmed_string
  null_iff := by
    refine ⟨exists_numeral_of_null, ?_⟩
    rintro ⟨n, hn, hle⟩
    rw [coerce, hn, coerceTrimmed_of_le hle]

/-- A price in blanks is the number nearest to it. -/
theorem coerce_loses_only_overflow_price :
    ∃ x : Binary64, x.Nearest (3 / 2) ∧ (Number.preferInt x).IsFinite ∧
      coerce (some " +1.50 ") = .number (Number.preferInt x) := by
  let price : Numeral := ⟨.plus, ['1'], ['5', '0'], by decide, List.all_eq_true.1 rfl⟩
  have hvalue : price.value = 3 / 2 := by
    have sign : price.negative = false := by decide
    have digits : price.digits = 150 := by decide
    have places : tenTo price.fraction.length = 100 := rfl
    rw [Numeral.value, sign, digits, places]
    norm_num [signed]
  have hlimit : |price.value| < limit := by
    rw [hvalue]
    calc |(3 / 2 : ℚ)| < 2 ^ 54 - 1 := by norm_num [abs_lt]
      _ ≤ limit := le_mul_of_one_le_right (by norm_num) (one_le_zpow₀ one_le_two (by decide))
  rw [← hvalue]
  exact (coerce_loses_only_overflow (some " +1.50 ")).number price (by decide) hlimit

/-- A one with 309 zeros is lost. -/
theorem coerce_loses_long_number : coerce (some (toString (tenTo 309))) = .null :=
  coerce_toString_of_le (by decide +kernel)

end

end TagText

end SchemaSynth
