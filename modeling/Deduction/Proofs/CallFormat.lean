import Deduction.Proofs.Calls
import Mathlib.Computability.RegularExpressions

/-!
# The format of rule calls

Which texts are calls is said in three ways. `CallForm` is the grammar: a name of one to four
letters and, in parentheses, arguments with commas between them, of which the first is a reference,
the second a reference or a path, and all others paths. `ofChars?` cuts a text at the end of the
name and at the commas and looks at the pieces (`ofChars?_eq_some_iff`). `callFormat` is a regular
expression for the whole text (`mem_callFormat_iff`); whoever uses it still has to cut the text
afterwards, without any help from the match (`parseByFormat`).

In the regular expression a second argument such as `11` can be matched as a reference or as the
first of the paths. The grammar does not care, since it only asks for one of the two.
-/

namespace Deduction.RuleCall

/-! ### The grammar -/

def asciiLetters : List Char := "abcdefghijklmnopqrstuvwxyzABCDEFGHIJKLMNOPQRSTUVWXYZ".toList

/-- The characters of references. -/
def referenceChars : List Char := "0123456789*".toList

/-- The characters a path can end in. -/
def positionChars : List Char := ['1', '2']

/-- One or more digits and wildcards. -/
def ReferenceForm (cs : List Char) : Prop := cs ≠ [] ∧ ∀ c ∈ cs, c ∈ referenceChars

/-- Two or more positions and dots, with a position at the end. -/
def PathForm (cs : List Char) : Prop :=
  2 ≤ cs.length ∧ (∀ c ∈ cs, c ∈ '.' :: positionChars) ∧ ∃ c ∈ positionChars, cs.getLast? = some c

/-- One or more arguments: a reference, then a reference or a path, then paths. -/
structure ArgumentsForm (arguments : List (List Char)) : Prop where
  first : ∃ a, arguments[0]? = some a ∧ ReferenceForm a
  second : ∀ a, arguments[1]? = some a → ReferenceForm a ∨ PathForm a
  later : ∀ a ∈ arguments.drop 2, PathForm a

/-- The characters are those of a call with this name and these arguments. -/
structure CallForm (cs name : List Char) (arguments : List (List Char)) : Prop where
  text : cs = name ++ '(' :: ([','].intercalate arguments ++ [')'])
  letters : ∀ c ∈ name, c ∈ asciiLetters
  short : 1 ≤ name.length ∧ name.length ≤ 4
  arguments : ArgumentsForm arguments

variable {cs ds name : List Char} {arguments : List (List Char)} {c : Char}

/-- What holds of all ASCII characters. -/
theorem forall_ascii {P : Char → Prop} (h : ∀ n < 128, P (Char.ofNat n))
    (hc : c.toNat < 128) : P c := by
  rw [← Char.ofNat_toNat c]
  exact h c.toNat hc

theorem mem_asciiLetters : c ∈ asciiLetters ↔ c.isAlpha = true := by
  constructor
  · intro hc
    have hall : asciiLetters.all Char.isAlpha = true := by decide +kernel
    exact List.all_eq_true.mp hall c hc
  · intro hc
    obtain ⟨-, hhi⟩ := visible_of_isAlpha hc
    have hall : ∀ n < 128, (Char.ofNat n).isAlpha = true → Char.ofNat n ∈ asciiLetters := by
      decide +kernel
    exact forall_ascii (P := fun c => c.isAlpha = true → c ∈ asciiLetters) hall (by omega) hc

theorem mem_referenceChars : c ∈ referenceChars ↔ isReferenceChar c = true := by
  constructor
  · intro hc
    have hall : referenceChars.all isReferenceChar = true := by decide +kernel
    exact List.all_eq_true.mp hall c hc
  · intro hc
    have hargument : isArgumentChar c = true := by rw [isArgumentChar, hc, Bool.true_or]
    obtain ⟨-, hhi⟩ := visible_of_isArgumentChar hargument
    have hall : ∀ n < 128, isReferenceChar (Char.ofNat n) = true →
        Char.ofNat n ∈ referenceChars := by
      decide +kernel
    exact forall_ascii (P := fun c => isReferenceChar c = true → c ∈ referenceChars) hall
      (by omega) hc

theorem mem_pathChars : c ∈ '.' :: positionChars ↔ isPathChar c = true := by
  simp only [positionChars, List.mem_cons, List.not_mem_nil, or_false, isPathChar, Bool.or_eq_true,
    decide_eq_true_eq]
  tauto

theorem referenceForm_iff : ReferenceForm cs ↔ isReference cs = true := by
  simp only [ReferenceForm, isReference, Bool.and_eq_true, List.all_eq_true, mem_referenceChars]
  simp

theorem pathForm_iff : PathForm cs ↔ isPath cs = true := by
  simp only [PathForm, isPath, Bool.and_eq_true, List.all_eq_true, mem_pathChars,
    decide_eq_true_eq, bne_iff_ne, and_assoc]
  refine and_congr_right fun hlength => and_congr_right fun hall => ?_
  have hne : cs ≠ [] := List.ne_nil_of_length_pos (by omega)
  rw [List.getLast?_eq_some_getLast hne]
  have hlast := mem_pathChars.mpr (hall _ (List.getLast_mem hne))
  simp only [positionChars, List.mem_cons, List.not_mem_nil, or_false] at hlast ⊢
  rcases hlast with h | h | h <;> rw [h] <;> simp

theorem argumentsForm_iff : ArgumentsForm arguments ↔ areArguments arguments = true := by
  rcases arguments with _ | ⟨first, _ | ⟨second, more⟩⟩
  · refine iff_of_false (fun h => ?_) Bool.false_ne_true
    obtain ⟨a, ha, -⟩ := h.first
    cases ha
  · rw [areArguments, ← referenceForm_iff]
    constructor
    · intro h
      obtain ⟨a, ha, hform⟩ := h.first
      cases ha
      exact hform
    · intro h
      exact ⟨⟨first, rfl, h⟩, fun _ ha => (by cases ha), fun _ ha => (by cases ha)⟩
  · simp only [areArguments, Bool.and_eq_true, Bool.or_eq_true, List.all_eq_true,
      ← referenceForm_iff, ← pathForm_iff]
    constructor
    · intro h
      obtain ⟨a, ha, hform⟩ := h.first
      cases ha
      exact ⟨⟨hform, h.second second rfl⟩, h.later⟩
    · rintro ⟨⟨hfirst, hsecond⟩, hmore⟩
      exact ⟨⟨first, rfl, hfirst⟩, fun a ha => (by cases ha; exact hsecond), hmore⟩

/-! ### Cutting the text -/

theorem CallForm.isAlpha (h : CallForm cs name arguments) : ∀ c ∈ name, c.isAlpha = true :=
  fun c hc => mem_asciiLetters.mp (h.letters c hc)

theorem CallForm.shape (h : CallForm cs name arguments) : areArguments arguments = true :=
  argumentsForm_iff.mp h.arguments

theorem CallForm.no_comma (h : CallForm cs name arguments) : ∀ a ∈ arguments, ',' ∉ a :=
  fun a ha hcomma => ne_comma_of_isArgumentChar (mem_arguments h.shape a ha ',' hcomma) rfl

theorem CallForm.ne_nil (h : CallForm cs name arguments) : arguments ≠ [] := by
  rintro rfl
  obtain ⟨a, ha, -⟩ := h.arguments.first
  cases ha

theorem CallForm.ofChars?_eq (h : CallForm cs name arguments) :
    ofChars? cs = some (name, arguments) := by
  rw [h.text, ofChars?_text h.isAlpha h.short h.ne_nil h.no_comma, if_pos h.shape]

theorem callForm_of_ofChars? (h : ofChars? cs = some (name, arguments)) :
    CallForm cs name arguments := by
  unfold ofChars? at h
  simp only at h
  split at h
  · next rest hrest =>
    split_ifs at h with hcall hshape
    cases h
    simp only [Bool.and_eq_true, decide_eq_true_eq] at hcall
    obtain ⟨⟨hlast, hpos⟩, hle⟩ := hcall
    obtain ⟨inside, rfl⟩ := List.getLast?_eq_some_iff.mp hlast
    refine ⟨?_, fun c hc => ?_, ⟨hpos, hle⟩, argumentsForm_iff.mpr hshape⟩
    · rw [List.dropLast_concat, Text.splitChars_eq_splitOn, List.intercalate_splitOn, ← hrest,
        List.takeWhile_append_dropWhile]
    · exact mem_asciiLetters.mpr (List.mem_takeWhile_imp hc)
  · cases h

/-- **The pieces of a text are those of the grammar.** -/
theorem ofChars?_eq_some_iff : ofChars? cs = some (name, arguments) ↔ CallForm cs name arguments :=
  ⟨callForm_of_ofChars?, CallForm.ofChars?_eq⟩

/-! ### The regular expression -/

open RegularExpression (star)

/-- One character of a list. -/
def oneOf (cs : List Char) : RegularExpression Char := (cs.map RegularExpression.char).sum

/-- One or more characters of a list. -/
def several (cs : List Char) : RegularExpression Char := oneOf cs * star (oneOf cs)

/-- From `least` to `most` repetitions. -/
def repeated (least most : ℕ) (r : RegularExpression Char) : RegularExpression Char :=
  ((List.range' least (most + 1 - least)).map (r ^ ·)).sum

def referenceFormat : RegularExpression Char := several referenceChars

def pathFormat : RegularExpression Char := several ('.' :: positionChars) * oneOf positionChars

def argumentsFormat : RegularExpression Char :=
  referenceFormat * repeated 0 1 (.char ',' * referenceFormat) * star (.char ',' * pathFormat)

def callFormat : RegularExpression Char :=
  repeated 1 4 (oneOf asciiLetters) * .char '(' * argumentsFormat * .char ')'

section Languages

variable {r : RegularExpression Char}

theorem mem_sum {rs : List (RegularExpression Char)} :
    cs ∈ rs.sum.matches' ↔ ∃ r ∈ rs, cs ∈ r.matches' := by
  induction rs with
  | nil => simp
  | cons r rs ih =>
    rw [List.sum_cons, RegularExpression.matches'_add, Language.mem_add, ih]
    simp

theorem mem_char : cs ∈ (RegularExpression.char c).matches' ↔ cs = [c] := Iff.rfl

theorem mem_mul {q : RegularExpression Char} :
    cs ∈ (q * r).matches' ↔ ∃ a ∈ q.matches', ∃ b ∈ r.matches', a ++ b = cs :=
  Language.mem_mul

theorem mem_oneOf : cs ∈ (oneOf ds).matches' ↔ ∃ c ∈ ds, cs = [c] := by
  rw [oneOf, mem_sum]
  simp only [List.mem_map, exists_exists_and_eq_and, mem_char]

theorem mem_pow_oneOf {n : ℕ} :
    cs ∈ (oneOf ds ^ n).matches' ↔ cs.length = n ∧ ∀ c ∈ cs, c ∈ ds := by
  rw [RegularExpression.matches'_pow]
  induction n generalizing cs with
  | zero =>
    rw [pow_zero, Language.mem_one, List.length_eq_zero_iff]
    refine ⟨fun hnil => ⟨hnil, ?_⟩, fun h => h.1⟩
    simp [hnil]
  | succ n ih =>
    rw [pow_succ', Language.mem_mul]
    constructor
    · rintro ⟨a, ha, b, hb, rfl⟩
      obtain ⟨c, hc, rfl⟩ := mem_oneOf.mp ha
      obtain ⟨hlength, hall⟩ := ih.mp hb
      exact ⟨by simp [hlength], List.forall_mem_cons.mpr ⟨hc, hall⟩⟩
    · rintro ⟨hlength, hall⟩
      obtain ⟨c, cs, rfl⟩ := List.exists_cons_of_length_eq_add_one hlength
      obtain ⟨hc, hall⟩ := List.forall_mem_cons.mp hall
      exact ⟨[c], mem_oneOf.mpr ⟨c, hc, rfl⟩, cs, ih.mpr ⟨by simpa using hlength, hall⟩, rfl⟩

theorem mem_several : cs ∈ (several ds).matches' ↔ cs ≠ [] ∧ ∀ c ∈ cs, c ∈ ds := by
  have hpower : cs ∈ (several ds).matches' ↔ ∃ n, cs ∈ (oneOf ds ^ (n + 1)).matches' := by
    simp only [several, RegularExpression.matches'_mul, RegularExpression.matches'_star,
      RegularExpression.matches'_pow, Language.kstar_eq_iSup_pow, Language.mul_iSup,
      Language.mem_iSup, pow_succ']
  rw [hpower]
  simp only [mem_pow_oneOf]
  constructor
  · rintro ⟨n, hlength, hall⟩
    exact ⟨List.ne_nil_of_length_eq_add_one hlength, hall⟩
  · rintro ⟨hne, hall⟩
    have hpos := List.length_pos_iff.mpr hne
    exact ⟨cs.length - 1, by omega, hall⟩

theorem mem_repeated {least most : ℕ} :
    cs ∈ (repeated least most r).matches' ↔
      ∃ n, least ≤ n ∧ n ≤ most ∧ cs ∈ (r ^ n).matches' := by
  rw [repeated, mem_sum]
  constructor
  · rintro ⟨q, hq, hcs⟩
    obtain ⟨n, hn, rfl⟩ := List.mem_map.mp hq
    obtain ⟨hle, hlt⟩ := List.mem_range'_1.mp hn
    exact ⟨n, hle, by omega, hcs⟩
  · rintro ⟨n, hle, hmost, hcs⟩
    exact ⟨r ^ n, List.mem_map_of_mem (List.mem_range'_1.mpr ⟨hle, by omega⟩), hcs⟩

theorem mem_optional : cs ∈ (repeated 0 1 r).matches' ↔ cs = [] ∨ cs ∈ r.matches' := by
  simp only [mem_repeated, RegularExpression.matches'_pow]
  constructor
  · rintro ⟨n, -, hn, hcs⟩
    rcases Nat.le_one_iff_eq_zero_or_eq_one.mp hn with rfl | rfl
    · exact Or.inl hcs
    · exact Or.inr (pow_one r.matches' ▸ hcs)
  · rintro (rfl | hcs)
    · exact ⟨0, Nat.le_refl 0, Nat.zero_le 1, rfl⟩
    · exact ⟨1, Nat.zero_le 1, Nat.le_refl 1, (pow_one r.matches').symm ▸ hcs⟩

theorem mem_referenceFormat : cs ∈ referenceFormat.matches' ↔ ReferenceForm cs := mem_several

theorem mem_pathFormat : cs ∈ pathFormat.matches' ↔ PathForm cs := by
  rw [pathFormat, mem_mul]
  constructor
  · rintro ⟨a, ha, b, hb, rfl⟩
    obtain ⟨hne, hall⟩ := mem_several.mp ha
    obtain ⟨c, hc, rfl⟩ := mem_oneOf.mp hb
    have hpos := List.length_pos_iff.mpr hne
    refine ⟨by rw [List.length_append, List.length_singleton]; omega, ?_, c, hc, by simp⟩
    exact List.forall_mem_append.mpr
      ⟨hall, by simpa using List.mem_cons_of_mem '.' hc⟩
  · rintro ⟨hlength, hall, c, hc, hlast⟩
    obtain ⟨a, rfl⟩ := List.getLast?_eq_some_iff.mp hlast
    rw [List.length_append, List.length_singleton] at hlength
    refine ⟨a, mem_several.mpr ⟨List.ne_nil_of_length_pos (by omega), ?_⟩, [c],
      mem_oneOf.mpr ⟨c, hc, rfl⟩, rfl⟩
    exact (List.forall_mem_append.mp hall).1

theorem mem_comma : cs ∈ (.char ',' * r).matches' ↔ ∃ a ∈ r.matches', cs = ',' :: a := by
  rw [mem_mul]
  constructor
  · rintro ⟨a, ha, b, hb, rfl⟩
    rw [mem_char.mp ha]
    exact ⟨b, hb, rfl⟩
  · rintro ⟨b, hb, rfl⟩
    exact ⟨[','], rfl, b, hb, rfl⟩

/-- Pieces that are each led by a comma. -/
theorem mem_star_comma :
    cs ∈ (star (.char ',' * r)).matches' ↔
      ∃ pieces : List (List Char), cs = pieces.flatMap (',' :: ·) ∧
        ∀ p ∈ pieces, p ∈ r.matches' := by
  rw [RegularExpression.matches'_star, Language.mem_kstar]
  constructor
  · rintro ⟨parts, rfl, hparts⟩
    induction parts with
    | nil => exact ⟨[], rfl, by simp⟩
    | cons part parts ih =>
      obtain ⟨hpart, hparts⟩ := List.forall_mem_cons.mp hparts
      obtain ⟨pieces, hpieces, hall⟩ := ih hparts
      obtain ⟨b, hb, rfl⟩ := mem_comma.mp hpart
      rw [List.flatten_cons, hpieces]
      exact ⟨b :: pieces, rfl, List.forall_mem_cons.mpr ⟨hb, hall⟩⟩
  · rintro ⟨pieces, rfl, hall⟩
    refine ⟨pieces.map (',' :: ·), List.flatMap_def, fun part hpart => ?_⟩
    obtain ⟨p, hp, rfl⟩ := List.mem_map.mp hpart
    exact mem_comma.mpr ⟨p, hall p hp, rfl⟩

/-! ### The regular expression and the grammar -/

theorem intercalate_cons (a : List Char) (pieces : List (List Char)) :
    [','].intercalate (a :: pieces) = a ++ pieces.flatMap (',' :: ·) := by
  induction pieces generalizing a with
  | nil => rw [List.intercalate_singleton, List.flatMap_nil, List.append_nil]
  | cons b pieces ih =>
    rw [List.intercalate_cons_cons, ih, List.flatMap_cons, List.append_assoc]
    rfl

theorem mem_argumentsFormat_iff :
    cs ∈ argumentsFormat.matches' ↔
      ∃ arguments, cs = [','].intercalate arguments ∧ ArgumentsForm arguments := by
  rw [argumentsFormat, mem_mul]
  constructor
  · rintro ⟨_, hfront, _, hback, rfl⟩
    obtain ⟨first, hfirst, optional, hoptional, rfl⟩ := mem_mul.mp hfront
    obtain ⟨paths, rfl, hmatched⟩ := mem_star_comma.mp hback
    rw [mem_referenceFormat] at hfirst
    have hpaths : ∀ p ∈ paths, PathForm p := fun p hp => mem_pathFormat.mp (hmatched p hp)
    rcases mem_optional.mp hoptional with rfl | hcomma
    · -- no second reference: the second argument, if there is one, is the first of the paths
      refine ⟨first :: paths, ?_, ⟨first, rfl, hfirst⟩, fun a ha => Or.inr ?_, fun a ha => ?_⟩
      · rw [List.append_nil, intercalate_cons]
      · exact hpaths a (List.mem_of_getElem? (List.getElem?_cons_succ ▸ ha))
      · exact hpaths a (List.mem_of_mem_drop (i := 1) ha)
    · obtain ⟨second, hsecond, rfl⟩ := mem_comma.mp hcomma
      rw [mem_referenceFormat] at hsecond
      refine ⟨first :: second :: paths, ?_, ⟨first, rfl, hfirst⟩, fun a ha => Or.inl ?_, hpaths⟩
      · rw [intercalate_cons, List.flatMap_cons, List.append_assoc]
      · cases ha
        exact hsecond
  · rintro ⟨arguments, rfl, h⟩
    obtain ⟨first, hfirst, hreference⟩ := h.first
    rcases arguments with _ | ⟨_, more⟩
    · cases hfirst
    cases hfirst
    have hpaths : ∀ {pieces : List (List Char)}, (∀ p ∈ pieces, PathForm p) →
        pieces.flatMap (',' :: ·) ∈ (star (.char ',' * pathFormat)).matches' :=
      fun hpieces => mem_star_comma.mpr ⟨_, rfl, fun p hp => mem_pathFormat.mpr (hpieces p hp)⟩
    rw [← mem_referenceFormat] at hreference
    rw [intercalate_cons]
    rcases more with _ | ⟨second, more⟩
    · exact ⟨first, mem_mul.mpr ⟨first, hreference, [], mem_optional.mpr (Or.inl rfl), by simp⟩,
        [], mem_star_comma.mpr ⟨[], rfl, by simp⟩, by simp⟩
    · rcases h.second second rfl with hsecond | hsecond
      · have hoptional : ',' :: second ∈ (repeated 0 1 (.char ',' * referenceFormat)).matches' :=
          mem_optional.mpr (Or.inr (mem_comma.mpr ⟨second, mem_referenceFormat.mpr hsecond, rfl⟩))
        exact ⟨first ++ ',' :: second, mem_mul.mpr ⟨first, hreference, _, hoptional, rfl⟩, _,
          hpaths h.later, by simp⟩
      · refine ⟨first, mem_mul.mpr ⟨first, hreference, [], ?_, List.append_nil first⟩, _,
          hpaths (List.forall_mem_cons.mpr ⟨hsecond, h.later⟩), rfl⟩
        exact mem_optional.mpr (Or.inl rfl)

/-- **The regular expression matches the texts of the grammar.** -/
theorem mem_callFormat_iff :
    cs ∈ callFormat.matches' ↔ ∃ name arguments, CallForm cs name arguments := by
  simp only [callFormat, mem_mul, mem_repeated, mem_pow_oneOf, mem_argumentsFormat_iff, mem_char]
  constructor
  · rintro ⟨_, ⟨_, ⟨name, ⟨n, hpos, hle, hlength, hletters⟩, _, rfl, rfl⟩, _,
      ⟨arguments, rfl, harguments⟩, rfl⟩, _, rfl, rfl⟩
    exact ⟨name, arguments, by simp, hletters, by omega, harguments⟩
  · rintro ⟨name, arguments, rfl, hletters, ⟨hpos, hle⟩, harguments⟩
    exact ⟨_, ⟨_, ⟨name, ⟨name.length, hpos, hle, rfl, hletters⟩, _, rfl, rfl⟩, _,
      ⟨arguments, rfl, harguments⟩, rfl⟩, _, rfl, by simp⟩

end Languages

/-! ### Reading by the regular expression -/

/-- Reads a call by matching the whole text first and cutting it at the first parenthesis and at the
commas then. -/
def parseByFormat (text : String) : Except RuleError RuleCall :=
  let cs := Text.squeezeChars text.toList
  if callFormat.rmatch cs then
    let name := cs.takeWhile (· ≠ '(')
    let rest := (cs.dropWhile (· ≠ '(')).tail
    let arguments := Text.splitChars ',' rest.dropLast
    if 2 < arguments.length then .error (.tooManyArguments (String.ofList name))
    else .ok ⟨String.ofList name, arguments.map String.ofList⟩
  else .error .invalidCall

theorem ne_paren_of_isAlpha (h : ∀ c ∈ name, c.isAlpha = true) :
    ∀ c ∈ name, decide (c ≠ '(') = true := by
  intro c hc
  rw [decide_eq_true_eq]
  rintro rfl
  exact absurd (h '(' hc) (by decide)

theorem takeWhile_name (h : ∀ c ∈ name, c.isAlpha = true) (rest : List Char) :
    (name ++ '(' :: rest).takeWhile (· ≠ '(') = name := by
  rw [List.takeWhile_append_of_pos (ne_paren_of_isAlpha h)]
  exact List.append_nil name

theorem CallForm.cut (h : CallForm cs name arguments) :
    cs.takeWhile (· ≠ '(') = name ∧
      Text.splitChars ',' (cs.dropWhile (· ≠ '(')).tail.dropLast = arguments := by
  rw [h.text]
  constructor
  · exact takeWhile_name h.isAlpha _
  · rw [List.dropWhile_append_of_pos (ne_paren_of_isAlpha h.isAlpha)]
    show Text.splitChars ',' ([','].intercalate arguments ++ [')']).dropLast = arguments
    rw [List.dropLast_concat, Text.splitChars_intercalate h.ne_nil h.no_comma]

theorem parseByFormat_eq (text : String) : parseByFormat text = parse text := by
  unfold parseByFormat parse
  simp only
  rcases hchars : ofChars? (Text.squeezeChars text.toList) with _ | ⟨name, arguments⟩
  · rw [if_neg]
    rw [RegularExpression.rmatch_iff_matches', mem_callFormat_iff]
    rintro ⟨name, arguments, hform⟩
    rw [hform.ofChars?_eq] at hchars
    cases hchars
  · have hform := callForm_of_ofChars? hchars
    obtain ⟨hname, harguments⟩ := hform.cut
    rw [if_pos ((RegularExpression.rmatch_iff_matches' _ _).mpr
      (mem_callFormat_iff.mpr ⟨name, arguments, hform⟩)), hname, harguments]

/-! ### All texts -/

theorem CallForm.parse_eq {text : String}
    (h : CallForm (Text.squeezeChars text.toList) name arguments) :
    parse text =
      if 2 < arguments.length then .error (.tooManyArguments (String.ofList name))
      else .ok ⟨String.ofList name, arguments.map String.ofList⟩ := by
  rw [parse, h.ofChars?_eq]

theorem parse_of_not_callForm {text : String}
    (h : ¬ ∃ name arguments, CallForm (Text.squeezeChars text.toList) name arguments) :
    parse text = .error .invalidCall := by
  rcases hchars : ofChars? (Text.squeezeChars text.toList) with _ | ⟨name, arguments⟩
  · rw [parse, hchars]
  · exact absurd ⟨name, arguments, ofChars?_eq_some_iff.mp hchars⟩ h

/-- The three things that can come of a text. -/
theorem parse_cases (text : String) :
    (∃ name arguments, CallForm (Text.squeezeChars text.toList) name arguments ∧
      arguments.length ≤ 2 ∧
      parse text = .ok ⟨String.ofList name, arguments.map String.ofList⟩) ∨
    (∃ name arguments, CallForm (Text.squeezeChars text.toList) name arguments ∧
      3 ≤ arguments.length ∧ parse text = .error (.tooManyArguments (String.ofList name))) ∨
    (¬ ∃ name arguments, CallForm (Text.squeezeChars text.toList) name arguments) ∧
      parse text = .error .invalidCall := by
  by_cases hform : ∃ name arguments, CallForm (Text.squeezeChars text.toList) name arguments
  · obtain ⟨name, arguments, hform⟩ := hform
    by_cases hcount : 2 < arguments.length
    · exact Or.inr (Or.inl ⟨name, arguments, hform, hcount, by rw [hform.parse_eq, if_pos hcount]⟩)
    · exact Or.inl ⟨name, arguments, hform, Nat.not_lt.mp hcount,
        by rw [hform.parse_eq, if_neg hcount]⟩
  · exact Or.inr (Or.inr ⟨hform, parse_of_not_callForm hform⟩)

/-- Reading the text fails, and the error has this subject and this reason. -/
def Fails (text subject reason : String) : Prop :=
  ∃ e, parse text = .error e ∧ e.subject = subject ∧ e.reason = reason

theorem parse_eq_ok_iff_callForm {text : String} {call : RuleCall} :
    parse text = .ok call ↔
      CallForm (Text.squeezeChars text.toList) call.name.toList (call.arguments.map String.toList) ∧
        call.arguments.length ≤ 2 := by
  have hlists : (String.toList ∘ String.ofList) = id := funext fun cs => String.toList_ofList
  have htexts : (String.ofList ∘ String.toList) = id := funext fun s => String.ofList_toList
  constructor
  · intro hread
    rcases parse_cases text with ⟨name, arguments, hform, hcount, hok⟩ | ⟨_, _, -, -, herror⟩ |
      ⟨-, herror⟩
    · rw [hok] at hread
      cases hread
      rw [String.toList_ofList, List.map_map, hlists, List.map_id, List.length_map]
      exact ⟨hform, hcount⟩
    · rw [herror] at hread
      cases hread
    · rw [herror] at hread
      cases hread
  · rintro ⟨hform, hcount⟩
    rw [hform.parse_eq, List.length_map, if_neg (by omega), String.ofList_toList, List.map_map,
      htexts, List.map_id]

theorem fails_tooManyArguments_iff {text name : String} :
    Fails text name "Too many arguments" ↔
      ∃ arguments, CallForm (Text.squeezeChars text.toList) name.toList arguments ∧
        3 ≤ arguments.length := by
  constructor
  · rintro ⟨e, hread, hsubject, hreason⟩
    rcases parse_cases text with ⟨_, _, -, -, hok⟩ | ⟨name', arguments, hform, hcount, herror⟩ |
      ⟨-, herror⟩
    · rw [hok] at hread
      cases hread
    · rw [herror] at hread
      cases hread
      rw [← hsubject]
      exact ⟨arguments, (String.toList_ofList (l := name')).symm ▸ hform, hcount⟩
    · rw [herror] at hread
      cases hread
      exact absurd hreason (by decide)
  · rintro ⟨arguments, hform, hcount⟩
    refine ⟨.tooManyArguments name, ?_, rfl, rfl⟩
    rw [hform.parse_eq, if_pos (by omega), String.ofList_toList]

theorem fails_invalidCall_iff {text : String} :
    Fails text "rule" "Rule format must be name(arg0[,arg1])" ↔
      ¬ ∃ name arguments, CallForm (Text.squeezeChars text.toList) name arguments := by
  constructor
  · rintro ⟨e, hread, hsubject, hreason⟩
    rcases parse_cases text with ⟨_, _, -, -, hok⟩ | ⟨_, _, -, -, herror⟩ | ⟨hnone, -⟩
    · rw [hok] at hread
      cases hread
    · rw [herror] at hread
      cases hread
      have htooMany : "Too many arguments" = "Rule format must be name(arg0[,arg1])" := hreason
      exact absurd htooMany (by decide)
    · exact hnone
  · intro hnone
    exact ⟨.invalidCall, parse_of_not_callForm hnone, rfl, rfl⟩

/-- **Calls are read by their grammar.** A text is read as a call exactly if, without its blanks, it
has the form of a call with this name and these arguments, of which there are at most two. If there
are more, it is refused under the name, and any text without that form is refused under the name
`rule`. Matching the regular expression first and cutting the text afterwards comes to the same. -/
theorem parse_exact (text : String) :
    (∀ call : RuleCall, parse text = .ok call ↔
      CallForm (Text.squeezeChars text.toList) call.name.toList (call.arguments.map String.toList) ∧
        call.arguments.length ≤ 2) ∧
    (∀ name : String, Fails text name "Too many arguments" ↔
      ∃ arguments, CallForm (Text.squeezeChars text.toList) name.toList arguments ∧
        3 ≤ arguments.length) ∧
    (Fails text "rule" "Rule format must be name(arg0[,arg1])" ↔
      ¬ ∃ name arguments, CallForm (Text.squeezeChars text.toList) name arguments) ∧
    parse text = parseByFormat text :=
  ⟨fun _ => parse_eq_ok_iff_callForm, fun _ => fails_tooManyArguments_iff, fails_invalidCall_iff,
    (parseByFormat_eq text).symm⟩

/-- A path after a name in mixed letter case and with blanks between the digits, a path too many,
and a third argument that is no path. -/
theorem parse_exact_paths :
    CallForm "dN(12,1.2)".toList "dN".toList ["12".toList, "1.2".toList] ∧
      (∃ arguments, CallForm "MP(1,*,.11)".toList "MP".toList arguments ∧ 3 ≤ arguments.length) ∧
      (¬ ∃ name arguments, CallForm "MP(1,2,3)".toList name arguments) ∧
      parseByFormat "MP(1,2,3)" = .error .invalidCall := by
  have hread : parse " dN ( 1 2,1.\t2)" = .ok ⟨"dN", ["12", "1.2"]⟩ := by decide +kernel
  have hmany : parse "MP(1,*,.11)" = .error (.tooManyArguments "MP") := by decide +kernel
  have hthird : parse "MP(1,2,3)" = .error .invalidCall := by decide +kernel
  have hsqueeze : Text.squeezeChars " dN ( 1 2,1.\t2)".toList = "dN(12,1.2)".toList ∧
      Text.squeezeChars "MP(1,*,.11)".toList = "MP(1,*,.11)".toList ∧
      Text.squeezeChars "MP(1,2,3)".toList = "MP(1,2,3)".toList := by decide +kernel
  obtain ⟨hsqueeze, hsqueeze', hsqueeze''⟩ := hsqueeze
  refine ⟨?_, ?_, ?_, ?_⟩
  · exact hsqueeze ▸ (((parse_exact " dN ( 1 2,1.\t2)").1 _).mp hread).1
  · exact hsqueeze' ▸ ((parse_exact "MP(1,*,.11)").2.1 "MP").mp ⟨_, hmany, rfl, rfl⟩
  · exact hsqueeze'' ▸ (parse_exact "MP(1,2,3)").2.2.1.mp ⟨_, hthird, rfl, rfl⟩
  · rw [← (parse_exact "MP(1,2,3)").2.2.2, hthird]

end Deduction.RuleCall
