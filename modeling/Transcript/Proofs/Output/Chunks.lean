import Mathlib.Data.List.Chain
import Mathlib.Data.Prod.Basic
import Transcript.Proofs.Output

/-!
Chunks are runs. However texts are pushed, the chunks of a sink are the longest runs of lines of one class, so a sink
is determined by its lines and their classes. The lines of a chunk, joined by line feeds, are cut into the same lines
again: extending a sink by another adds just the lines of the other, and gives what pushing all texts into one sink
gives.
-/
namespace Transcript

/-! ### Lines that are joined are cut again -/

theorem notMem_of_mem_splitOn {sep : Char} {cs piece : List Char} (h : piece ∈ cs.splitOn sep) : sep ∉ piece := by
  induction cs generalizing piece with
  | nil =>
      rw [List.splitOn_nil, List.mem_singleton] at h
      rw [h]
      exact List.not_mem_nil
  | cons c cs ih =>
      rw [List.splitOn_cons_eq_if_modifyHead] at h
      split at h
      · rcases List.mem_cons.1 h with rfl | h
        · exact List.not_mem_nil
        · exact ih h
      next hc =>
        obtain ⟨first, rest, hpieces⟩ := List.exists_cons_of_ne_nil (List.splitOn_ne_nil sep cs)
        rw [hpieces] at h ih
        rcases List.mem_cons.1 h with rfl | h
        · have hne : sep ≠ c := fun heq => hc (by rw [heq, beq_self_eq_true])
          exact fun hsep => (List.mem_cons.1 hsep).elim hne (ih List.mem_cons_self)
        · exact ih (List.mem_cons_of_mem _ h)

/-- A line has no line feed, and no carriage return at its end. -/
structure IsLine (line : String) : Prop where
  notMem : '\n' ∉ line.toList
  getLast?_ne : line.toList.getLast? ≠ some '\r'

theorem isLine_of_mem_outputLines {text line : String} (h : line ∈ outputLines text) : IsLine line := by
  obtain ⟨piece, hpiece, rfl⟩ := List.mem_map.1 h
  refine ⟨?_, ?_⟩
  · rw [String.toList_ofList]
    exact fun hnewline => notMem_of_mem_splitOn hpiece (Text.dropEndWhile_sublist.subset hnewline)
  · rw [String.toList_ofList]
    intro hreturn
    have hkept := Text.getLast?_dropEndWhile (p := (· == '\r')) '\r' hreturn
    cases hkept

/-- Joined lines are cut into the same lines. -/
theorem outputLines_intercalate {lines : List String} (hne : lines ≠ []) (hlines : ∀ line ∈ lines, IsLine line) :
    outputLines ("\n".intercalate lines) = lines := by
  have hpieces : ("\n".intercalate lines).toList.splitOn '\n' = lines.map String.toList := by
    rw [String.toList_intercalate]
    refine List.splitOn_intercalate '\n' ?_ (by simpa using hne)
    exact List.forall_mem_map.2 fun line hline => (hlines line hline).notMem
  rw [outputLines, hpieces, List.map_map]
  refine (List.map_congr_left fun line hline => ?_).trans (List.map_id lines)
  have hend : Text.dropEndWhile (· == '\r') line.toList = line.toList := by
    refine Text.dropEndWhile_eq_self fun c hc => beq_eq_false_iff_ne.2 ?_
    rintro rfl
    exact (hlines line hline).getLast?_ne hc
  rw [Function.comp_apply, hend, String.ofList_toList, id]

namespace Sink

/-! ### Runs of lines -/

/-- The chunks are the longest runs of lines of one class. -/
structure Runs (s : Sink) : Prop where
  proper : s.Proper
  apart : s.chunks.IsChain fun c d => c.highlight ≠ d.highlight
  isLine : ∀ line ∈ s.lines, IsLine line.2

theorem runs_empty : Runs empty where
  proper := proper_empty
  apart := List.IsChain.nil
  isLine line hline := by cases hline

theorem Runs.push {s : Sink} (h : s.Runs) (highlight : Highlight) (text : String) : (s.push highlight text).Runs where
  proper := h.proper.push highlight text
  apart := by
    unfold Sink.push
    cases hlast : s.chunks.getLast? with
    | none => exact List.IsChain.singleton _
    | some last =>
        obtain ⟨before, hchunks⟩ := List.getLast?_eq_some_iff.1 hlast
        have hapart := h.apart
        rw [hchunks, List.isChain_append] at hapart
        obtain ⟨hbefore, -, hseam⟩ := hapart
        simp only
        split
        next hsame =>
          rw [hchunks, List.dropLast_concat, List.isChain_append]
          refine ⟨hbefore, List.IsChain.singleton _, ?_⟩
          intro c hc d hd
          obtain rfl := Option.some.inj hd
          rw [← hsame]
          exact hseam c hc last rfl
        next hother =>
          rw [List.isChain_append]
          refine ⟨h.apart, List.IsChain.singleton _, ?_⟩
          intro c hc d hd
          obtain rfl := Option.some.inj hd
          obtain rfl := Option.some.inj (hlast.symm.trans hc)
          exact hother
  isLine := by
    intro line hline
    rw [lines_push] at hline
    rcases List.mem_append.1 hline with hline | hline
    · exact h.isLine line hline
    · obtain ⟨text', htext', rfl⟩ := List.mem_map.1 hline
      exact isLine_of_mem_outputLines htext'

theorem Runs.pushAll {s : Sink} (h : s.Runs) (texts : List (Highlight × String)) : (s.pushAll texts).Runs := by
  induction texts generalizing s with
  | nil => exact h
  | cons text texts ih => exact ih (h.push text.1 text.2)

/-- The first chunk of runs is the lines up to the first one of another class. -/
theorem Runs.takeWhile_lines {c : Chunk} {rest : List Chunk} (h : Runs ⟨c :: rest⟩) :
    (lines ⟨c :: rest⟩).takeWhile (·.1 = c.highlight) = c.lines.map (c.highlight, ·)
      ∧ (lines ⟨c :: rest⟩).dropWhile (·.1 = c.highlight) = lines ⟨rest⟩ := by
  have hfirst : ∀ line ∈ c.lines.map (c.highlight, ·), decide (line.1 = c.highlight) = true := by simp
  have hrest : (lines ⟨rest⟩).takeWhile (·.1 = c.highlight) = []
      ∧ (lines ⟨rest⟩).dropWhile (·.1 = c.highlight) = lines ⟨rest⟩ := by
    cases rest with
    | nil => exact ⟨rfl, rfl⟩
    | cons d rest =>
        obtain ⟨line, more, hlines⟩ := List.exists_cons_of_ne_nil (h.proper d (by simp))
        have hother : d.highlight ≠ c.highlight := (List.isChain_cons_cons.1 h.apart).1.symm
        simp [lines, hlines, hother]
  have hlines : lines ⟨c :: rest⟩ = c.lines.map (c.highlight, ·) ++ lines ⟨rest⟩ := List.flatMap_cons
  rw [hlines, List.takeWhile_append_of_pos hfirst, List.dropWhile_append_of_pos hfirst, hrest.1, hrest.2,
    List.append_nil]
  exact ⟨rfl, rfl⟩

theorem Runs.tail {c : Chunk} {rest : List Chunk} (h : Runs ⟨c :: rest⟩) : Runs ⟨rest⟩ where
  proper d hd := h.proper d (List.mem_cons_of_mem c hd)
  apart := h.apart.tail
  isLine line hline := h.isLine line (by rw [lines, List.flatMap_cons]; exact List.mem_append_right _ hline)

/-- The first line has the class of the first chunk. -/
theorem Runs.head?_lines {s : Sink} (h : s.Runs) :
    s.lines.head?.map Prod.fst = s.chunks.head?.map Chunk.highlight := by
  obtain ⟨chunks⟩ := s
  cases chunks with
  | nil => rfl
  | cons c rest =>
      obtain ⟨line, more, hlines⟩ := List.exists_cons_of_ne_nil (h.proper c List.mem_cons_self)
      simp [lines, hlines]

/-- Runs are determined by their lines. -/
theorem Runs.eq_of_lines_eq {s t : Sink} (hs : s.Runs) (ht : t.Runs) (h : s.lines = t.lines) : s = t := by
  obtain ⟨chunks⟩ := s
  obtain ⟨chunks'⟩ := t
  have hhead : chunks.head?.map Chunk.highlight = chunks'.head?.map Chunk.highlight := by
    rw [← hs.head?_lines, ← ht.head?_lines, h]
  induction chunks generalizing chunks' with
  | nil =>
      cases chunks' with
      | nil => rfl
      | cons d rest' => cases hhead
  | cons c rest ih =>
      cases chunks' with
      | nil => cases hhead
      | cons d rest' =>
          have hsame : c.highlight = d.highlight := Option.some.inj hhead
          obtain ⟨hfirst, hbehind⟩ := hs.takeWhile_lines
          obtain ⟨hfirst', hbehind'⟩ := ht.takeWhile_lines
          rw [h, hsame] at hfirst hbehind
          have hlines : c.lines = d.lines :=
            List.map_injective_iff.2 (Prod.mk_right_injective _) (hfirst.symm.trans hfirst')
          have hrest : lines ⟨rest⟩ = lines ⟨rest'⟩ := hbehind.symm.trans hbehind'
          have hhead' : rest.head?.map Chunk.highlight = rest'.head?.map Chunk.highlight := by
            rw [← hs.tail.head?_lines, ← ht.tail.head?_lines, hrest]
          have heq : (⟨rest⟩ : Sink) = ⟨rest'⟩ := ih hs.tail rest' ht.tail hrest hhead'
          obtain ⟨highlight, ls⟩ := c
          obtain ⟨highlight', ls'⟩ := d
          obtain rfl : highlight = highlight' := hsame
          obtain rfl : ls = ls' := hlines
          obtain rfl : rest = rest' := congrArg chunks heq
          rfl

/-! ### Extending -/

theorem extend_eq_pushAll (s other : Sink) :
    s.extend other = s.pushAll (other.chunks.map fun c => (c.highlight, "\n".intercalate c.lines)) := by
  rw [pushAll, List.foldl_map, extend]

/-- The lines of the chunks are not cut in another way. -/
theorem Runs.lines_extend {other : Sink} (h : other.Runs) (s : Sink) :
    (s.extend other).lines = s.lines ++ other.lines := by
  rw [extend_eq_pushAll, lines_pushAll_eq, List.flatMap_map]
  refine congrArg (s.lines ++ ·) (List.flatMap_congr fun c hc => ?_)
  have hlines : ∀ line ∈ c.lines, IsLine line := by
    intro line hline
    exact h.isLine (c.highlight, line) (List.mem_flatMap.2 ⟨c, hc, List.mem_map_of_mem hline⟩)
  rw [outputLines_intercalate (h.proper c hc) hlines]

/-- **Extending a sink.** Texts that are pushed into one sink, and texts that are pushed into another by which it is
extended, leave what pushing all of them into one sink leaves. Whatever is pushed, neighbouring chunks differ in class,
no chunk is empty, and the chunks hold in order, each with its class, the lines that the texts are split into at line
feeds, without the carriage returns at their ends. -/
theorem extend_pushAll (texts texts' : List (Highlight × String)) :
    (empty.pushAll texts).extend (empty.pushAll texts') = empty.pushAll (texts ++ texts')
      ∧ (empty.pushAll texts).chunks.IsChain (fun c d => c.highlight ≠ d.highlight)
      ∧ (∀ c ∈ (empty.pushAll texts).chunks, c.lines ≠ [])
      ∧ ((empty.pushAll texts).chunks.flatMap fun c => c.lines.map (c.highlight, ·))
        = (texts.flatMap fun text =>
            (text.2.toList.splitOn '\n').map fun line => (text.1, String.ofList (line.rdropWhile (· == '\r'))))
      ∧ ∀ c ∈ (empty.pushAll texts).chunks, ∀ line ∈ c.lines,
          '\n' ∉ line.toList ∧ line.toList.getLast? ≠ some '\r' := by
  have hruns : ∀ texts, (empty.pushAll texts).Runs := runs_empty.pushAll
  refine ⟨?_, (hruns texts).apart, (hruns texts).proper, ?_, ?_⟩
  · have hextended : ((empty.pushAll texts).extend (empty.pushAll texts')).Runs := by
      rw [extend_eq_pushAll]
      exact (hruns texts).pushAll _
    refine hextended.eq_of_lines_eq (hruns _) ?_
    calc ((empty.pushAll texts).extend (empty.pushAll texts')).lines
        = (empty.pushAll texts).lines ++ (empty.pushAll texts').lines := (hruns texts').lines_extend _
      _ = ((empty.pushAll texts).pushAll texts').lines := (lines_pushAll _ texts').symm
      _ = (empty.pushAll (texts ++ texts')).lines := by rw [pushAll_append]
  · refine (lines_pushAll_eq empty texts).trans (List.flatMap_congr fun text _ => ?_)
    rw [outputLines, List.map_map]
    rfl
  · intro c hc line hline
    have hcut := (hruns texts).isLine (c.highlight, line) (List.mem_flatMap.2 ⟨c, hc, List.mem_map_of_mem hline⟩)
    exact ⟨hcut.notMem, hcut.getLast?_ne⟩

example : empty.pushAll [(.output, "a\r\n\rb\r\r"), (.output, "\r"), (.error, "")]
    = ⟨[⟨.output, ["a", "\rb", ""]⟩, ⟨.error, [""]⟩]⟩ := by decide

end Sink

end Transcript
