import Deduction.Proofs.Numbering
import Deduction.Proofs.Run

/-!
# Texts of rule calls

The text of a well-formed call is read back as the call (`RuleCall.parse_text`). A line that is read
as a call holds a parenthesis, so it is neither blank nor a command (`Session.plain_of_paren`), and
in rule mode it is carried out as a call (`Session.handle_call`). What the call asks for follows
from the facts that its arguments refer to: all of them, or the one with the number
(`Session.selectFor_wildcard`, `Session.selectFor_toString`). Whether a path can stand in a call
does not depend on the reference before it (`RuleCall.isReference_or_isPath_of_parse`).
-/

namespace Deduction

/-! ### Separated texts -/

theorem Text.splitChars_eq_splitOn (separator : Char) :
    ∀ cs : List Char, Text.splitChars separator cs = cs.splitOn separator
  | [] => (List.splitOn_nil separator).symm
  | c :: cs => by
    rw [splitChars, splitChars_eq_splitOn separator cs, List.splitOn_cons_eq_if_modifyHead]
    by_cases hc : c = separator
    · rw [if_pos hc, if_pos (by simpa using hc)]
    · rw [if_neg hc, if_neg (by simpa using hc)]
      obtain ⟨piece, pieces, hp⟩ := List.exists_cons_of_ne_nil (List.splitOn_ne_nil separator cs)
      rw [hp, List.modifyHead_cons]

theorem Text.splitChars_intercalate {separator : Char} {pieces : List (List Char)}
    (hne : pieces ≠ []) (h : ∀ p ∈ pieces, separator ∉ p) :
    Text.splitChars separator ([separator].intercalate pieces) = pieces := by
  rw [splitChars_eq_splitOn, List.splitOn_intercalate separator h hne]

theorem Text.mem_intercalate {separator c : Char} :
    ∀ {pieces : List (List Char)}, c ∈ [separator].intercalate pieces →
      c = separator ∨ ∃ p ∈ pieces, c ∈ p
  | [p], h => by
    rw [List.intercalate_singleton] at h
    exact Or.inr ⟨p, List.mem_singleton_self p, h⟩
  | p :: q :: pieces, h => by
    rw [List.intercalate_cons_cons, List.mem_append, List.mem_append, List.mem_singleton] at h
    rcases h with (h | h) | h
    · exact Or.inr ⟨p, List.mem_cons_self, h⟩
    · exact Or.inl h
    · rcases mem_intercalate h with h | ⟨r, hr, h⟩
      · exact Or.inl h
      · exact Or.inr ⟨r, List.mem_cons_of_mem p hr, h⟩

/-! ### Calls and their texts -/

namespace RuleCall

/-- The text of a call. -/
def text (call : RuleCall) : String :=
  String.ofList (call.name.toList ++
    '(' :: ([','].intercalate (call.arguments.map String.toList) ++ [')']))

/-- A name of one to four letters, and one or two arguments of the right shape. -/
structure WellFormed (call : RuleCall) : Prop where
  letters : ∀ c ∈ call.name.toList, c.isAlpha = true
  short : 1 ≤ call.name.toList.length ∧ call.name.toList.length ≤ 4
  shape : areArguments (call.arguments.map String.toList) = true
  count : call.arguments.length ≤ 2

variable {call : RuleCall} {c : Char}

/-- The characters of arguments. -/
def isArgumentChar (c : Char) : Bool := isReferenceChar c || isPathChar c

theorem mem_arguments {args : List (List Char)} (h : areArguments args = true) :
    ∀ a ∈ args, ∀ c ∈ a, isArgumentChar c = true := by
  have href : ∀ {a : List Char}, isReference a = true → ∀ c ∈ a, isArgumentChar c = true := by
    intro a ha c hc
    rw [isReference, Bool.and_eq_true, List.all_eq_true] at ha
    rw [isArgumentChar, ha.2 c hc, Bool.true_or]
  have hpath : ∀ {a : List Char}, isPath a = true → ∀ c ∈ a, isArgumentChar c = true := by
    intro a ha c hc
    simp only [isPath, Bool.and_eq_true, List.all_eq_true] at ha
    rw [isArgumentChar, ha.1.2 c hc, Bool.or_true]
  rcases args with _ | ⟨first, _ | ⟨second, more⟩⟩
  · cases h
  · intro a ha
    rw [List.mem_singleton.mp ha]
    exact href h
  · simp only [areArguments, Bool.and_eq_true, Bool.or_eq_true, List.all_eq_true] at h
    intro a ha
    rcases List.mem_cons.mp ha with rfl | ha
    · exact href h.1.1
    · rcases List.mem_cons.mp ha with rfl | ha
      · exact h.1.2.elim href hpath
      · exact hpath (h.2 a ha)

theorem visible_of_isArgumentChar (h : isArgumentChar c = true) : 42 ≤ c.toNat ∧ c.toNat ≤ 57 := by
  simp only [isArgumentChar, isReferenceChar, isPathChar, Bool.or_eq_true, decide_eq_true_eq] at h
  rcases h with (h | rfl) | (rfl | rfl) | rfl
  · have := Text.toNat_of_isDigit h
    omega
  all_goals decide

theorem ne_comma_of_isArgumentChar (h : isArgumentChar c = true) : c ≠ ',' := by
  rintro rfl
  exact absurd h (by decide)

theorem visible_of_isAlpha (h : c.isAlpha = true) : 65 ≤ c.toNat ∧ c.toNat ≤ 122 := by
  rcases Bool.or_eq_true_iff.mp (show (c.isUpper || c.isLower) = true from h) with h | h
  · obtain ⟨h1, h2⟩ : 'A'.val ≤ c.val ∧ c.val ≤ 'Z'.val := of_decide_eq_true h
    have h1 : 65 ≤ c.toNat := UInt32.le_iff_toNat_le.mp h1
    have h2 : c.toNat ≤ 90 := UInt32.le_iff_toNat_le.mp h2
    omega
  · obtain ⟨h1, h2⟩ := Bool.and_eq_true_iff.mp
      (show (decide ('a'.val ≤ c.val) && decide (c.val ≤ 'z'.val)) = true from h)
    have h1 : 97 ≤ c.toNat := UInt32.le_iff_toNat_le.mp (of_decide_eq_true h1)
    have h2 : c.toNat ≤ 122 := UInt32.le_iff_toNat_le.mp (of_decide_eq_true h2)
    omega

/-- The characters of the text of a call. -/
theorem not_blank_text {name : List Char} {args : List (List Char)}
    (hletters : ∀ c ∈ name, c.isAlpha = true)
    (hargs : ∀ a ∈ args, ∀ c ∈ a, Text.isBlank c = false) :
    ∀ c ∈ name ++ '(' :: ([','].intercalate args ++ [')']), Text.isBlank c = false := by
  intro c hc
  simp only [List.mem_append, List.mem_cons, List.not_mem_nil, or_false] at hc
  rcases hc with hc | rfl | hc | rfl
  · obtain ⟨hlo, hhi⟩ := visible_of_isAlpha (hletters c hc)
    exact Text.isBlank_of_visible (by omega) (by omega)
  · decide
  · rcases Text.mem_intercalate hc with rfl | ⟨a, ha, hca⟩
    · decide
    · exact hargs a ha c hca
  · decide

theorem ofChars?_text {name : List Char} {args : List (List Char)}
    (hletters : ∀ c ∈ name, c.isAlpha = true) (hshort : 1 ≤ name.length ∧ name.length ≤ 4)
    (hne : args ≠ []) (hcomma : ∀ a ∈ args, ',' ∉ a) :
    ofChars? (name ++ '(' :: ([','].intercalate args ++ [')'])) =
      if areArguments args then some (name, args) else none := by
  have htake : (name ++ '(' :: ([','].intercalate args ++ [')'])).takeWhile Char.isAlpha =
      name := by
    rw [List.takeWhile_append_of_pos hletters]
    exact List.append_nil _
  have hdrop : (name ++ '(' :: ([','].intercalate args ++ [')'])).dropWhile Char.isAlpha =
      '(' :: ([','].intercalate args ++ [')']) := by
    rw [List.dropWhile_append_of_pos hletters]
    rfl
  simp only [ofChars?, htake, hdrop]
  rw [List.getLast?_concat, List.dropLast_concat, Text.splitChars_intercalate hne hcomma,
    if_pos (by simp [hshort.1, hshort.2])]

theorem parse_text_eq {name : String} {arguments : List String}
    (hletters : ∀ c ∈ name.toList, c.isAlpha = true)
    (hshort : 1 ≤ name.toList.length ∧ name.toList.length ≤ 4) (hne : arguments ≠ [])
    (hcount : arguments.length ≤ 2)
    (hargs : ∀ a ∈ arguments, ∀ c ∈ a.toList, Text.isBlank c = false ∧ c ≠ ',') :
    parse (text ⟨name, arguments⟩) =
      if areArguments (arguments.map String.toList) then .ok ⟨name, arguments⟩
      else .error .invalidCall := by
  have hlists : ∀ a ∈ arguments.map String.toList, ∀ c ∈ a, Text.isBlank c = false ∧ c ≠ ',' := by
    intro a ha
    obtain ⟨argument, hmem, rfl⟩ := List.mem_map.mp ha
    exact hargs argument hmem
  have hsqueeze := Text.squeezeChars_eq_self
    (not_blank_text hletters fun a ha c hc => (hlists a ha c hc).1)
  have hchars := ofChars?_text hletters hshort (by simpa using hne) fun a ha hc =>
    (hlists a ha _ hc).2 rfl
  have hid : (String.ofList ∘ String.toList) = id := funext fun s => String.ofList_toList
  rw [parse, text, String.toList_ofList, hsqueeze, hchars]
  split_ifs with hshape
  · simp only
    rw [if_neg (by rw [List.length_map]; omega), String.ofList_toList, List.map_map, hid,
      List.map_id]
  · rfl

/-- **The text of a well-formed call is read back as the call.** -/
theorem parse_text (h : call.WellFormed) : parse call.text = .ok call := by
  obtain ⟨name, arguments⟩ := call
  have hne : arguments ≠ [] := by
    rintro rfl
    exact Bool.false_ne_true h.shape
  have hargs : ∀ a ∈ arguments, ∀ c ∈ a.toList, Text.isBlank c = false ∧ c ≠ ',' := by
    intro a ha c hc
    have hchar := mem_arguments h.shape a.toList (List.mem_map_of_mem ha) c hc
    obtain ⟨hlo, hhi⟩ := visible_of_isArgumentChar hchar
    exact ⟨Text.isBlank_of_visible (by omega) (by omega), ne_comma_of_isArgumentChar hchar⟩
  rw [parse_text_eq h.letters h.short hne h.count hargs, if_pos h.shape]

theorem paren_mem_of_parse {line : String} (h : parse line = .ok call) : '(' ∈ line.toList := by
  unfold parse at h
  split at h
  · cases h
  · next hchars =>
    unfold ofChars? at hchars
    simp only at hchars
    split at hchars
    · next rest hdrop =>
      have hmem : '(' ∈ (Text.squeezeChars line.toList).dropWhile Char.isAlpha := by
        rw [hdrop]
        exact List.mem_cons_self
      exact List.mem_of_mem_filter ((List.dropWhile_sublist _).mem hmem)
    · cases hchars

end RuleCall

/-! ### Calls are no commands -/

namespace Text

variable {c : Char}

theorem mem_dropWhile_of_neg {p : Char → Bool} (hp : p c = false) :
    ∀ {cs : List Char}, c ∈ cs → c ∈ cs.dropWhile p
  | d :: cs, hc => by
    rw [List.dropWhile_cons]
    split_ifs with hd
    · rcases List.mem_cons.mp hc with rfl | hc
      · rw [hp] at hd
        cases hd
      · exact mem_dropWhile_of_neg hp hc
    · exact hc

theorem mem_stripChars {cs : List Char} (hb : isBlank c = false) (hc : c ∈ cs) :
    c ∈ stripChars cs := by
  rw [stripChars, List.mem_reverse]
  exact mem_dropWhile_of_neg hb (List.mem_reverse.mpr (mem_dropWhile_of_neg hb hc))

/-- A character that is its own lower-case form stays. -/
theorem mem_lowerAfter (hsigma : c ≠ 'Σ') (hc : lowerChar c = [c]) :
    ∀ {cs : List Char} (before : List Char), c ∈ cs → c ∈ lowerAfter before cs
  | d :: cs, before, hmem => by
    rw [lowerAfter, List.mem_append]
    rcases List.mem_cons.mp hmem with rfl | hmem
    · left
      rw [if_neg hsigma, hc]
      exact List.mem_singleton_self c
    · right
      exact mem_lowerAfter hsigma hc (d :: before) hmem

end Text

theorem Command.ofLine?_eq_none_of_paren {line : String} (h : '(' ∈ line.toList) (mode : Mode) :
    Command.ofLine? line mode = none := by
  have hwanted : '(' ∈ (Text.lowercase (Text.strip line)).toList := by
    rw [Text.lowercase, String.toList_ofList, Text.strip, String.toList_ofList]
    exact Text.mem_lowerAfter (by decide) (by decide) [] (Text.mem_stripChars (by decide) h)
  rw [Command.ofLine?, List.find?_eq_none]
  intro command _ hword
  have hword : command.word = Text.lowercase (Text.strip line) := by simpa using hword
  rw [← hword] at hwanted
  cases command <;> exact absurd hwanted (by decide)

namespace Session

variable {s : Session} {line : String} {call : RuleCall} {rule : Rule}

theorem plain_of_paren (hp : s.pending = none) (h : '(' ∈ line.toList) : s.Plain line := by
  refine ⟨Bool.eq_false_iff.mpr fun hb => ?_, hp, Command.ofLine?_eq_none_of_paren h s.mode⟩
  have := List.all_eq_true.mp hb '(' h
  exact absurd this (by decide)

theorem plain_of_call (hp : s.pending = none) (h : RuleCall.parse line = .ok call) :
    s.Plain line :=
  plain_of_paren hp (RuleCall.paren_mem_of_parse h)

/-- **In rule mode a call is carried out.** -/
theorem handle_call (hm : s.mode = .rule) (hp : s.pending = none)
    (h : RuleCall.parse line = .ok call) : s.handle line = s.runRule line := by
  rw [handle_plain (plain_of_call hp h), hm]

/-! ### What a call asks for -/

theorem selectFor_wildcard (s : Session) (rule : Rule) :
    s.selectFor rule FactBase.wildcard = .ok s.facts.values := by
  rw [selectFor, FactBase.select_wildcard]
  rcases s.facts.values with _ | ⟨f, fs⟩ <;> rfl

theorem selectFor_toString {k : ℕ} {f : Formula} (hk : 1 ≤ k)
    (hlen : (toString k).length ≤ Text.digitLimit) (hf : s.facts.get? k = some f) :
    s.selectFor rule (toString k) = .ok [f] := by
  rw [selectFor, FactBase.select_toString _ hk hlen, hf]
  rfl

section Request

variable {name first second : String} {fs gs : List Formula}

theorem request_one (h : s.selectFor rule first = .ok fs) (hadd : rule ≠ .add) :
    s.request rule ⟨name, [first]⟩ =
      .ok (.run { rule, first := fs, silent := first = FactBase.wildcard }) := by
  simp only [request, h, bind, Except.bind, if_neg hadd]
  rfl

theorem request_add (h : s.selectFor .add first = .ok fs) :
    s.request .add ⟨name, [first]⟩ = .ok (.wait ⟨fs, first = FactBase.wildcard⟩) := by
  simp only [request, h, bind, Except.bind]
  rfl

theorem request_two (hr : rule.isReplacement = false) (h : s.selectFor rule first = .ok fs)
    (h' : s.selectFor rule second = .ok gs) :
    s.request rule ⟨name, [first, second]⟩ = .ok (.run
      { rule, first := fs, second := .many gs,
        silent := first = FactBase.wildcard ∨ second = FactBase.wildcard }) := by
  have hwild : RuleCall.usesWildcard ⟨name, [first, second]⟩ =
      decide (first = FactBase.wildcard ∨ second = FactBase.wildcard) := by
    simp [RuleCall.usesWildcard, eq_comm]
  simp only [request, h, h', hr, hwild, bind, Except.bind]
  rfl

theorem request_path {path : Option (List ℕ)} (hr : rule.isReplacement = true)
    (h : s.selectFor rule first = .ok fs) (h' : RuleCall.readPath rule second = .ok path) :
    s.request rule ⟨name, [first, second]⟩ = .ok (.run
      { rule, first := fs, silent := first = FactBase.wildcard,
        path := (path.getD []).map Int.ofNat }) := by
  simp only [request, h, h', hr, bind, Except.bind]
  rfl

end Request

end Session

/-! ### Calls of a rule -/

namespace Rule

variable {rule : Rule} {name : String} {arguments : List String}

/-- The rule can be called by the name. -/
structure CalledBy (rule : Rule) (name : String) : Prop where
  letters : ∀ c ∈ name.toList, c.isAlpha = true
  short : 1 ≤ name.toList.length ∧ name.toList.length ≤ 4
  found : lookup? name = some rule

/-- A rule that can be carried out can be called by its terse name. -/
theorem calledBy_terse (hi : rule.isImplemented = true) : rule.CalledBy rule.terse := by
  refine ⟨List.all_eq_true.mp ?_, ?_, ?_⟩
  · cases rule <;> decide
  · revert hi
    cases rule <;> decide
  · cases rule <;> decide +kernel

/-- The arguments have the shape that a call asks for. -/
def TakesArguments (arguments : List String) : Prop :=
  RuleCall.areArguments (arguments.map String.toList) = true ∧ arguments.length ≤ 2

theorem takesArguments_one {first : String}
    (hfirst : RuleCall.isReference first.toList = true) : TakesArguments [first] :=
  ⟨hfirst, by simp⟩

theorem takesArguments_two {first second : String}
    (hfirst : RuleCall.isReference first.toList = true)
    (hsecond : RuleCall.isReference second.toList = true ∨ RuleCall.isPath second.toList = true) :
    TakesArguments [first, second] := by
  refine ⟨?_, by simp⟩
  simp only [List.map_cons, List.map_nil, RuleCall.areArguments, hfirst, List.all_nil,
    Bool.and_true, Bool.true_and, Bool.or_eq_true]
  exact hsecond

theorem CalledBy.parse_text (h : rule.CalledBy name) (ha : TakesArguments arguments) :
    RuleCall.parse (RuleCall.text ⟨name, arguments⟩) = .ok ⟨name, arguments⟩ :=
  RuleCall.parse_text ⟨h.letters, h.short, ha.1, ha.2⟩

end Rule

theorem RuleCall.isReference_of_digits {cs : List Char} (hne : cs ≠ [])
    (h : ∀ c ∈ cs, c.isDigit = true) : isReference cs = true := by
  rw [isReference, Bool.and_eq_true, List.all_eq_true]
  refine ⟨by simpa using hne, fun c hc => ?_⟩
  rw [isReferenceChar, h c hc, Bool.true_or]

theorem RuleCall.isReference_toString (k : ℕ) : isReference (toString k).toList = true :=
  isReference_of_digits (Text.toString_ne_nil k) fun _ hc => Text.isDigit_of_mem_toString hc

namespace Session

variable {s : Session} {rule : Rule} {name : String} {arguments : List String}

theorem requestOf_text (hn : rule.CalledBy name) (ha : Rule.TakesArguments arguments) :
    s.requestOf (RuleCall.text ⟨name, arguments⟩) = s.request rule ⟨name, arguments⟩ := by
  rw [requestOf, hn.parse_text ha]
  simp only [hn.found]

theorem handle_run {b : Batch} (hm : s.mode = .rule) (hp : s.pending = none)
    (hn : rule.CalledBy name) (ha : Rule.TakesArguments arguments)
    (h : s.request rule ⟨name, arguments⟩ = .ok (.run b)) :
    s.handle (RuleCall.text ⟨name, arguments⟩) = .ok (s.runBatch b) := by
  rw [handle_call hm hp (hn.parse_text ha), runRule, requestOf_text hn ha, h]

theorem handle_wait {pending : Pending} (hm : s.mode = .rule) (hp : s.pending = none)
    (hn : rule.CalledBy name) (ha : Rule.TakesArguments arguments)
    (h : s.request rule ⟨name, arguments⟩ = .ok (.wait pending)) :
    s.handle (RuleCall.text ⟨name, arguments⟩) =
      .ok ({ s with pending := some pending }, { messages := [additionPrompt] }) := by
  rw [handle_call hm hp (hn.parse_text ha), runRule, requestOf_text hn ha, h]

end Session

/-! ### Calls with a path -/

namespace RuleCall

theorem isDigits_of_readPositions {rule : Rule} :
    ∀ {parts : List (List Char)} {positions : List ℕ}, readPositions rule parts = .ok positions →
      ∀ part ∈ parts, Text.isDigits part = true
  | [], _, _ => by simp
  | part :: parts, positions, h => by
    rw [readPositions] at h
    split_ifs at h with hdigits
    split at h
    · cases h
    · obtain ⟨rest, hrest, -⟩ := map_eq_ok_iff.mp h
      intro q hq
      rcases List.mem_cons.mp hq with rfl | hq
      · simpa using hdigits
      · exact isDigits_of_readPositions hrest q hq

theorem isDigit_of_readPath {rule : Rule} {text : String} {path : Option (List ℕ)}
    (h : readPath rule text = .ok path) : ∀ c ∈ text.toList, Text.isDigit c = true ∨ c = '.' := by
  intro c hc
  unfold readPath at h
  split_ifs at h with hwhole
  · rw [hwhole] at hc
    obtain rfl : c = '0' := by simpa [wholePath] using hc
    exact Or.inl (by decide)
  · obtain ⟨positions, hpositions, -⟩ := map_eq_ok_iff.mp h
    have hjoin : ['.'].intercalate (text.toList.splitOn '.') = text.toList :=
      List.intercalate_splitOn '.'
    rw [← hjoin, ← Text.splitChars_eq_splitOn] at hc
    rcases Text.mem_intercalate hc with rfl | ⟨part, hpart, hc⟩
    · exact Or.inr rfl
    · have hdigits := isDigits_of_readPositions hpositions part hpart
      rw [Text.isDigits, Bool.and_eq_true, List.all_eq_true] at hdigits
      exact Or.inl (hdigits.2 c hc)

/-- If a call with the wildcard and a path can be read, the path has the shape of an argument. -/
theorem isReference_or_isPath_of_parse {rule : Rule} {name text : String} {path : Option (List ℕ)}
    {call : RuleCall} (hn : rule.CalledBy name) (hpath : readPath rule text = .ok path)
    (h : parse (RuleCall.text ⟨name, [FactBase.wildcard, text]⟩) = .ok call) :
    isReference text.toList = true ∨ isPath text.toList = true := by
  have hargs : ∀ a ∈ [FactBase.wildcard, text], ∀ c ∈ a.toList,
      Text.isBlank c = false ∧ c ≠ ',' := by
    intro a ha c hc
    simp only [List.mem_cons, List.not_mem_nil, or_false] at ha
    rcases ha with rfl | rfl
    · obtain rfl : c = '*' := by simpa [FactBase.wildcard] using hc
      decide
    · rcases isDigit_of_readPath hpath c hc with hdigit | rfl
      · refine ⟨Text.isBlank_of_isDigit_any hdigit, ?_⟩
        rintro rfl
        exact absurd hdigit (by decide)
      · decide
  rw [parse_text_eq hn.letters hn.short (by simp) (by simp) hargs] at h
  split_ifs at h with hshape
  simp only [List.map_cons, List.map_nil, areArguments, Bool.and_eq_true, Bool.or_eq_true] at hshape
  exact hshape.1.2

end RuleCall

end Deduction
