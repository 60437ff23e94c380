import Transcript.Output
import Transcript.Proofs.Text

/-!
Chunks of output. A text has at least one line, so whatever is pushed leaves a line in the last chunk and no chunk
is empty. The classes of the chunks are the classes that were pushed.
-/
namespace Transcript

theorem outputLines_ne_nil (text : String) : outputLines text ≠ [] := by
  unfold outputLines
  intro h
  exact List.splitOn_ne_nil '\n' text.toList (List.map_eq_nil_iff.1 h)

/-- A text without line feeds and without carriage returns at its end is one line. -/
theorem outputLines_of_line {text : String} (hnewline : '\n' ∉ text.toList)
    (hreturn : text.toList.getLast? ≠ some '\r') : outputLines text = [text] := by
  have hend : Text.dropEndWhile (· == '\r') text.toList = text.toList := by
    refine Text.dropEndWhile_eq_self fun c hc => ?_
    rw [beq_eq_false_iff_ne]
    rintro rfl
    exact hreturn hc
  rw [outputLines, List.splitOn_eq_singleton hnewline, List.map_singleton, hend, String.ofList_toList]

namespace Sink

/-- What a push leaves: the chunks there were, the last of them grown, or a new one. -/
theorem mem_push {s : Sink} {highlight : Highlight} {text : String} {c : Chunk}
    (h : c ∈ (s.push highlight text).chunks) :
    c ∈ s.chunks ∨ ∃ before, c = ⟨highlight, before ++ outputLines text⟩ := by
  unfold Sink.push at h
  split at h
  · split at h
    · rcases List.mem_append.1 h with h | h
      · exact Or.inl (List.dropLast_subset _ h)
      · exact Or.inr ⟨_, List.mem_singleton.1 h⟩
    · rcases List.mem_append.1 h with h | h
      · exact Or.inl h
      · exact Or.inr ⟨[], List.mem_singleton.1 h⟩
  · exact Or.inr ⟨[], List.mem_singleton.1 h⟩

/-! ### No empty chunks -/

/-- Every chunk has a line. -/
def Proper (s : Sink) : Prop := ∀ c ∈ s.chunks, c.lines ≠ []

theorem proper_empty : Proper empty := by
  intro c hc
  cases hc

theorem Proper.push {s : Sink} (h : s.Proper) (highlight : Highlight) (text : String) :
    (s.push highlight text).Proper := by
  intro c hc
  rcases mem_push hc with hc | ⟨before, rfl⟩
  · exact h c hc
  · exact List.append_ne_nil_of_right_ne_nil before (outputLines_ne_nil text)

theorem proper_foldl_push {ι : Type} (highlight : ι → Highlight) (text : ι → String) (is : List ι) {s : Sink}
    (h : s.Proper) : (is.foldl (fun s i => s.push (highlight i) (text i)) s).Proper := by
  induction is generalizing s with
  | nil => exact h
  | cons i is ih => exact ih (h.push (highlight i) (text i))

theorem Proper.extend {s : Sink} (h : s.Proper) (other : Sink) : (s.extend other).Proper :=
  proper_foldl_push Chunk.highlight (fun c => "\n".intercalate c.lines) other.chunks h

theorem proper_of (highlight : Highlight) (text : String) : (of highlight text).Proper :=
  proper_empty.push highlight text

/-! ### One chunk -/

/-- Lines of one class are one chunk. -/
theorem foldl_push_lines {ι : Type} (highlight : Highlight) (text : ι → String) {is : List ι} (hne : is ≠ [])
    (hline : ∀ i ∈ is, outputLines (text i) = [text i]) :
    is.foldl (fun s i => s.push highlight (text i)) empty = ⟨[⟨highlight, is.map text⟩]⟩ := by
  have hmore : ∀ (rest : List ι) (lines : List String), (∀ i ∈ rest, outputLines (text i) = [text i]) →
      rest.foldl (fun s i => s.push highlight (text i)) (⟨[⟨highlight, lines⟩]⟩ : Sink)
        = ⟨[⟨highlight, lines ++ rest.map text⟩]⟩ := by
    intro rest
    induction rest with
    | nil => simp
    | cons i rest ih =>
        intro lines hrest
        obtain ⟨hi, hrest'⟩ := List.forall_mem_cons.1 hrest
        have hpush : push ⟨[⟨highlight, lines⟩]⟩ highlight (text i) = ⟨[⟨highlight, lines ++ [text i]⟩]⟩ := by
          simp [push, hi]
        rw [List.foldl_cons, hpush, ih _ hrest', List.map_cons, List.append_assoc, List.singleton_append]
  obtain ⟨i, rest, rfl⟩ := List.exists_cons_of_ne_nil hne
  obtain ⟨hi, hrest⟩ := List.forall_mem_cons.1 hline
  have hfirst : push empty highlight (text i) = ⟨[⟨highlight, [text i]⟩]⟩ := by rw [← hi]; rfl
  rw [List.foldl_cons, hfirst, hmore rest _ hrest, List.map_cons, List.singleton_append]

theorem of_line {highlight : Highlight} {text : String} (hline : outputLines text = [text]) :
    of highlight text = ⟨[⟨highlight, [text]⟩]⟩ := by
  rw [← hline]
  rfl

/-! ### Classes -/

/-- No chunk has the class of continuation lines. -/
def Plain (s : Sink) : Prop := ∀ c ∈ s.chunks, c.highlight ≠ .continuation

theorem plain_empty : Plain empty := by
  intro c hc
  cases hc

theorem Plain.push {s : Sink} (h : s.Plain) {highlight : Highlight} (hne : highlight ≠ .continuation)
    (text : String) : (s.push highlight text).Plain := by
  intro c hc
  rcases mem_push hc with hc | ⟨before, rfl⟩
  · exact h c hc
  · exact hne

theorem plain_foldl_push {ι : Type} (highlight : ι → Highlight) (text : ι → String) {is : List ι}
    (hne : ∀ i ∈ is, highlight i ≠ .continuation) {s : Sink} (h : s.Plain) :
    (is.foldl (fun s i => s.push (highlight i) (text i)) s).Plain := by
  induction is generalizing s with
  | nil => exact h
  | cons i is ih =>
      refine ih (fun i hi => hne i (List.mem_cons_of_mem _ hi)) ?_
      exact h.push (hne i List.mem_cons_self) (text i)

theorem Plain.extend {s other : Sink} (h : s.Plain) (hother : other.Plain) : (s.extend other).Plain :=
  plain_foldl_push Chunk.highlight (fun c => "\n".intercalate c.lines) hother h

theorem plain_of {highlight : Highlight} (hne : highlight ≠ .continuation) (text : String) :
    (of highlight text).Plain :=
  plain_empty.push hne text

/-! ### Lines -/

/-- Pushes texts in order. -/
def pushAll (s : Sink) (texts : List (Highlight × String)) : Sink :=
  texts.foldl (fun s text => s.push text.1 text.2) s

theorem pushAll_append (s : Sink) (texts texts' : List (Highlight × String)) :
    s.pushAll (texts ++ texts') = (s.pushAll texts).pushAll texts' := List.foldl_append

/-- The lines of a sink with their classes, in order. -/
def lines (s : Sink) : List (Highlight × String) := s.chunks.flatMap fun c => c.lines.map (c.highlight, ·)

theorem lines_push (s : Sink) (highlight : Highlight) (text : String) :
    (s.push highlight text).lines = s.lines ++ (outputLines text).map (highlight, ·) := by
  unfold push
  cases hlast : s.chunks.getLast? with
  | none =>
      rw [List.getLast?_eq_none_iff] at hlast
      simp [lines, hlast]
  | some last =>
      obtain ⟨before, hchunks⟩ := List.getLast?_eq_some_iff.1 hlast
      by_cases hsame : last.highlight = highlight
      · simp [lines, hchunks, hsame]
      · simp [lines, hchunks, hsame]

/-- Pushing adds the lines of the texts in order, each with the class of its text. -/
theorem lines_pushAll_eq (s : Sink) (texts : List (Highlight × String)) :
    (s.pushAll texts).lines = s.lines ++ texts.flatMap fun text => (outputLines text.2).map (text.1, ·) := by
  induction texts generalizing s with
  | nil => exact (List.append_nil _).symm
  | cons text texts ih =>
      rw [pushAll, List.foldl_cons, ← pushAll, ih, lines_push, List.flatMap_cons, List.append_assoc]

/-- What is pushed comes behind what there was. -/
theorem lines_pushAll (s : Sink) (texts : List (Highlight × String)) :
    (s.pushAll texts).lines = s.lines ++ (empty.pushAll texts).lines := by
  rw [lines_pushAll_eq s, lines_pushAll_eq empty]
  rfl

/-- The lines of one class, in order. -/
def linesIn (s : Sink) (highlight : Highlight) : List String :=
  (s.lines.filter (·.1 = highlight)).map Prod.snd

theorem linesIn_pushAll {s s' : Sink} {highlight : Highlight} (h : s'.linesIn highlight = s.linesIn highlight)
    (texts : List (Highlight × String)) :
    (s'.pushAll texts).linesIn highlight = (s.pushAll texts).linesIn highlight := by
  unfold linesIn at h ⊢
  rw [lines_pushAll s', lines_pushAll s, List.filter_append, List.filter_append, List.map_append, List.map_append, h]

/-- A text of another class adds nothing to the lines of a class. -/
theorem linesIn_push_of_ne {pushed highlight : Highlight} (hne : pushed ≠ highlight) (s : Sink) (text : String) :
    (s.push pushed text).linesIn highlight = s.linesIn highlight := by
  have hnone : ((outputLines text).map (pushed, ·)).filter (·.1 = highlight) = [] := by
    simp [hne]
  rw [linesIn, lines_push, List.filter_append, hnone, List.append_nil, linesIn]

end Sink

end Transcript
