import Transcript.Command.Input
import Transcript.Proofs.Text
import Transcript.Proofs.Token.Words

/-!
Command lines. The word behind the leader calls the command that it abbreviates; there is one at most, for no two names
start with the same letter. What stands behind the word and the white space after it is the first line of the argument,
and the continuations without their markers are the others.
-/
namespace Transcript

/-! ### The command that is called -/

namespace Command

variable {typed : String} {c d : Command}

/-- The word abbreviates the name of the command. -/
def IsCalledBy (c : Command) (typed : String) : Prop := typed ≠ "" ∧ typed.toList <+: c.name.toList

theorem abbreviates_iff : abbreviates typed c.name c.leastLength = true ↔ c.IsCalledBy typed := by
  have hlength : typed ≠ "" → 1 ≤ Text.byteLength typed.toList := by
    intro hne
    obtain ⟨first, rest, htyped⟩ := List.exists_cons_of_ne_nil (mt String.toList_eq_nil_iff.1 hne)
    rw [htyped, Text.byteLength_cons]
    have hpos := first.utf8Size_pos
    omega
  have hempty : (!typed.isEmpty) = true ↔ typed ≠ "" := by simp
  rw [abbreviates, leastLength, Bool.and_eq_true, Bool.and_eq_true, hempty, decide_eq_true_eq,
    List.isPrefixOf_iff_prefix, IsCalledBy, and_iff_left_of_imp hlength]

/-- No two names start with the same letter. -/
theorem eq_of_head?_eq (h : c.name.toList.head? = d.name.toList.head?) : c = d := by
  have hall : ∀ c ∈ all, ∀ d ∈ all, c.name.toList.head? = d.name.toList.head? → c = d := by decide
  exact hall c (mem_all c) d (mem_all d) h

theorem IsCalledBy.head?_eq (h : c.IsCalledBy typed) : typed.toList.head? = c.name.toList.head? := by
  obtain ⟨hne, rest, hname⟩ := h
  obtain ⟨first, others, htyped⟩ := List.exists_cons_of_ne_nil (mt String.toList_eq_nil_iff.1 hne)
  rw [← hname, htyped]
  rfl

theorem IsCalledBy.eq (h : c.IsCalledBy typed) (h' : d.IsCalledBy typed) : c = d :=
  eq_of_head?_eq (h.head?_eq.symm.trans h'.head?_eq)

theorem isCalledBy_of_lookup? (h : lookup? typed = some c) : c.IsCalledBy typed :=
  abbreviates_iff.1 (List.find?_some (p := fun c : Command => abbreviates typed c.name c.leastLength) h)

/-- A word calls the command that it abbreviates, wherever the command is in the table. -/
theorem lookup?_eq_some_iff : lookup? typed = some c ↔ c.IsCalledBy typed := by
  refine ⟨isCalledBy_of_lookup?, fun h => ?_⟩
  cases hlookup : lookup? typed with
  | none =>
      have hno := List.find?_eq_none.1 hlookup c (mem_all c)
      exact absurd (abbreviates_iff.2 h) hno
  | some d => rw [(isCalledBy_of_lookup? hlookup).eq h]

theorem lookup?_eq_none_iff : lookup? typed = none ↔ ∀ c : Command, ¬ c.IsCalledBy typed := by
  rw [Option.eq_none_iff_forall_ne_some]
  exact forall_congr' fun c => not_congr lookup?_eq_some_iff

theorem IsCalledBy.letters (h : c.IsCalledBy typed) : ∀ letter ∈ typed.toList, letter.isAlpha = true := by
  have hnames : ∀ c ∈ all, c.name.toList.all Char.isAlpha = true := by decide
  intro letter hletter
  exact List.all_eq_true.1 (hnames c (mem_all c)) letter (h.2.subset hletter)

end Command

/-! ### The parts of a command line -/

namespace Input

variable {leader marker : Char} {first : String} {word gap head : List Char} {rest : List String} {c : Command}

/-- A line that calls a command: the leader, a word of letters, white space, and the rest of the line. -/
structure Calls (leader : Char) (first : String) (word gap head : List Char) : Prop where
  line_eq : first = String.ofList (leader :: (word ++ gap ++ head))
  letters : ∀ c ∈ word, c.isAlpha = true
  blanks : ∀ c ∈ gap, Text.isBlank c = true
  head_not_blank : ∀ c ∈ head.head?, Text.isBlank c = false
  head_not_letter : gap = [] → ∀ c ∈ head.head?, c.isAlpha = false

/-- A word, white space and an argument, whatever is behind its first character. -/
theorem calls_of_argument {c : Char} {cs : List Char} (hline : first = String.ofList (leader :: (word ++ gap ++ c :: cs)))
    (hletters : word.all Char.isAlpha = true) (hblanks : gap.all Text.isBlank = true) (hgap : gap ≠ [])
    (hc : Text.isBlank c = false) : Calls leader first word gap (c :: cs) where
  line_eq := hline
  letters := List.all_eq_true.1 hletters
  blanks := List.all_eq_true.1 hblanks
  head_not_blank := by
    rintro d ⟨⟩
    exact hc
  head_not_letter := fun h => absurd h hgap

/-- Every line that starts with the leader has these parts. -/
theorem exists_calls (leader : Char) (cs : List Char) :
    ∃ word gap head, Calls leader (String.ofList (leader :: cs)) word gap head := by
  refine ⟨cs.takeWhile Char.isAlpha, (cs.dropWhile Char.isAlpha).takeWhile Text.isBlank,
    (cs.dropWhile Char.isAlpha).dropWhile Text.isBlank, ?_, ?_, ?_, Text.head?_dropWhile, ?_⟩
  · rw [List.append_assoc, List.takeWhile_append_dropWhile, List.takeWhile_append_dropWhile]
  · exact fun c hc => List.mem_takeWhile_imp hc
  · exact fun c hc => List.mem_takeWhile_imp hc
  · intro hgap c hc
    have hrest := List.takeWhile_append_dropWhile (p := Text.isBlank) (l := cs.dropWhile Char.isAlpha)
    rw [hgap, List.nil_append] at hrest
    rw [hrest] at hc
    exact Text.head?_dropWhile c hc

theorem Calls.splitCommand_eq (h : Calls leader first word gap head) :
    splitCommand (word ++ gap ++ head) = (word, head) := by
  obtain ⟨-, hletters, hblanks, hhead, hletter⟩ := h
  have hstop : ∀ (p : Char → Bool) (cs : List Char), (∀ c ∈ cs.head?, p c = false) →
      cs.takeWhile p = [] ∧ cs.dropWhile p = cs := by
    intro p cs hcs
    cases cs with
    | nil => exact ⟨rfl, rfl⟩
    | cons c cs => simp [hcs c rfl]
  have hbehind : ∀ c ∈ (gap ++ head).head?, c.isAlpha = false := by
    cases gap with
    | nil => exact hletter rfl
    | cons c gap =>
        intro d hd
        obtain rfl := Option.some.inj hd
        exact Text.not_isAlpha_of_blank (hblanks _ List.mem_cons_self)
  obtain ⟨hword, hrest⟩ := hstop Char.isAlpha (gap ++ head) hbehind
  rw [splitCommand, List.append_assoc, List.takeWhile_append_of_pos hletters, List.dropWhile_append_of_pos hletters,
    hword, hrest, List.append_nil, List.dropWhile_append_of_pos hblanks, (hstop Text.isBlank head hhead).2]

/-- What a command line asks for. -/
theorem Calls.classify_eq (h : Calls leader first word gap head) (hnewline : '\n' ∉ head) (marker : Char)
    (rest : List String) :
    classify leader marker (first :: rest)
      = match Command.lookup? (String.ofList word) with
        | none => .error .invalidCommand
        | some c => .ok (.command c (argument? c (String.ofList head) (rest.map (stripMarker marker)))) := by
  have hsplit := h.splitCommand_eq
  obtain rfl := h.line_eq
  have hno : head.contains '\n' = false := by simpa using hnewline
  cases hlookup : Command.lookup? (String.ofList word) <;>
    simp only [classify, String.toList_ofList, if_true, hsplit, hno, Bool.false_eq_true, if_false, hlookup]

/-- A line that does not start with the leader is the first one of a program. -/
theorem classify_program (hfirst : first.toList.head? ≠ some leader) (marker : Char) (rest : List String) :
    classify leader marker (first :: rest) = .ok (.program (first :: rest.map (stripMarker marker))) := by
  unfold classify
  cases hcs : first.toList with
  | nil => simp only [hcs]
  | cons c cs =>
      have hc : c ≠ leader := by
        rintro rfl
        exact hfirst (by rw [hcs]; rfl)
      simp only [hcs, if_neg hc]

/-! ### The argument -/

section Argument

variable {text : String} {continuations : List String} {a : Argument}

/-- The argument is left out exactly if there is nothing but white space. -/
theorem argument?_eq_none_iff :
    argument? c text continuations = none ↔ ∀ t ∈ text :: continuations, Text.isBlankText t = true := by
  cases continuations with
  | nil => simp [argument?, Text.isBlankText_trimmedEnd]
  | cons t ts => simp [argument?]

/-- The value of an argument is all its lines in one, without the white space around them. -/
theorem toValue_argument? (h : argument? c text continuations = some a) :
    a.toValue = Argument.valueOf (text :: continuations) := by
  have hlone : Argument.valueOf [Text.trimmedEnd text] = Argument.valueOf [text] := by
    simp only [Argument.valueOf, String.intercalate_singleton, Text.trimmed_trimmedEnd]
  have hshape : ∀ lines, (if c.isRaw then Argument.source lines else .value (Argument.valueOf lines)).toValue
      = Argument.valueOf lines := by
    intro lines
    split <;> rfl
  simp only [argument?, Option.ite_none_left_eq_some] at h
  rw [← Option.some.inj h.2, hshape]
  cases continuations with
  | nil => exact hlone
  | cons t ts => rfl

/-- The argument of a language is its lines as they were typed. -/
theorem argument?_of_raw (hraw : c.isRaw = true) (hend : ∀ c ∈ text.toList.getLast?, Text.isBlank c = false)
    (hblank : ∃ t ∈ text :: continuations, Text.isBlankText t = false) :
    argument? c text continuations = some (.source (text :: continuations)) := by
  obtain ⟨t, ht, hsome⟩ := hblank
  have hall : (text :: continuations).all Text.isBlankText ≠ true := by
    intro hall
    rw [List.all_eq_true.1 hall t ht] at hsome
    cases hsome
  have hlines : (if continuations.isEmpty then [Text.trimmedEnd text] else text :: continuations)
      = text :: continuations := by
    cases continuations with
    | nil => simp [Text.trimmedEnd_eq_self hend]
    | cons t ts => rfl
  rw [argument?, hlines]
  simp only [if_neg hall, hraw, if_true]

theorem toList_valueOf (texts : List String) :
    (Argument.valueOf texts).toList = Text.trim ([' '].intercalate (texts.map String.toList)) := by
  rw [Argument.valueOf, Text.trimmed, String.toList_ofList, String.toList_intercalate]
  rfl

theorem notMem_intercalate {letter : Char} {sep : List Char} {lines : List (List Char)} (hsep : letter ∉ sep)
    (hlines : ∀ line ∈ lines, letter ∉ line) : letter ∉ sep.intercalate lines := by
  induction lines with
  | nil => simp
  | cons line lines ih =>
      obtain ⟨hline, hrest⟩ := List.forall_mem_cons.1 hlines
      cases lines with
      | nil => simpa using hline
      | cons next lines =>
          rw [List.intercalate_cons_cons]
          simp only [List.mem_append, not_or]
          exact ⟨⟨hline, hsep⟩, ih hrest⟩

theorem mem_intercalate {letter : Char} {line : List Char} {lines : List (List Char)} (hline : line ∈ lines)
    (hletter : letter ∈ line) (sep : List Char) : letter ∈ sep.intercalate lines := by
  induction lines with
  | nil => cases hline
  | cons first lines ih =>
      cases lines with
      | nil =>
          rw [List.mem_singleton.1 hline] at hletter
          simpa using hletter
      | cons next lines =>
          rw [List.intercalate_cons_cons]
          rcases List.mem_cons.1 hline with rfl | hline
          · exact List.mem_append_left _ (List.mem_append_left _ hletter)
          · exact List.mem_append_right _ (ih hline)

/-- The value of lines without line feeds is without line feeds. -/
theorem newline_notMem_valueOf {texts : List String} (h : ∀ t ∈ texts, '\n' ∉ t.toList) :
    '\n' ∉ (Argument.valueOf texts).toList := by
  rw [toList_valueOf]
  intro hmem
  have hwhole := (List.dropWhile_sublist _).subset (Text.dropEndWhile_sublist.subset hmem)
  refine notMem_intercalate (by decide) ?_ hwhole
  intro line hline
  obtain ⟨t, ht, rfl⟩ := List.mem_map.1 hline
  exact h t ht

/-- The value of lines with more than white space has a character at its end, which is no white space. -/
theorem getLast?_valueOf {texts : List String} (h : ∃ t ∈ texts, Text.isBlankText t = false) :
    ∃ c, (Argument.valueOf texts).toList.getLast? = some c ∧ Text.isBlank c = false := by
  obtain ⟨t, ht, hsome⟩ := h
  rw [toList_valueOf]
  have hne : Text.trim ([' '].intercalate (texts.map String.toList)) ≠ [] := by
    intro hnil
    have hall : Text.isBlankText t = true :=
      Text.isBlankText_iff.2 fun c hc => Text.trim_eq_nil_iff.1 hnil c (mem_intercalate (List.mem_map_of_mem ht) hc _)
    rw [hall] at hsome
    cases hsome
  have hlast := List.getLast?_eq_getLast_of_ne_nil hne
  exact ⟨_, hlast, Text.getLast?_dropEndWhile _ hlast⟩

end Argument

end Input

end Transcript
