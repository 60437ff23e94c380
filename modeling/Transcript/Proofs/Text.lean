import Mathlib.Data.List.DropRight
import Transcript.Text

/-!
Facts about texts: trimming, and cutting at columns.
-/
namespace Transcript.Text

/-!
## Trimming

Trimmed texts. What is left has no white space at its ends, and there is nothing left exactly if there was nothing but
white space. White space that was taken off the end before makes no difference.
-/

variable {p : Char → Bool} {cs tail : List Char}

theorem dropEndWhile_eq_self (h : ∀ c ∈ cs.getLast?, p c = false) : dropEndWhile p cs = cs := by
  refine List.rdropWhile_eq_self_iff.2 fun hne => ?_
  rw [Bool.not_eq_true]
  exact h _ (List.getLast?_eq_getLast_of_ne_nil hne)

theorem head?_dropWhile : ∀ c ∈ (cs.dropWhile p).head?, p c = false := by
  intro c hc
  have hhead := List.head?_dropWhile_not p cs
  rw [Option.mem_def.1 hc] at hhead
  exact hhead

theorem getLast?_dropEndWhile : ∀ c ∈ (dropEndWhile p cs).getLast?, p c = false := by
  rw [dropEndWhile, List.getLast?_reverse]
  exact head?_dropWhile

theorem dropEndWhile_sublist : (dropEndWhile p cs).Sublist cs := by
  obtain ⟨tail, hcs, -⟩ := exists_dropEndWhile_append p cs
  conv_rhs => rw [hcs]
  exact List.sublist_append_left _ tail

theorem dropEndWhile_append_of_pos (htail : ∀ c ∈ tail, p c = true) :
    dropEndWhile p (cs ++ tail) = dropEndWhile p cs := by
  rw [dropEndWhile, List.reverse_append, List.dropWhile_append_of_pos (by simpa using htail), dropEndWhile]

theorem trim_dropEndWhile (cs : List Char) : trim (dropEndWhile isBlank cs) = trim cs := by
  obtain ⟨tail, hcs, htail⟩ := exists_dropEndWhile_append isBlank cs
  rw [List.all_eq_true] at htail
  generalize dropEndWhile isBlank cs = front at hcs
  subst hcs
  rw [trim, trim, List.dropWhile_append]
  split
  next hfront => rw [List.isEmpty_iff.1 hfront, List.dropWhile_eq_nil_iff.2 htail]
  · rw [dropEndWhile_append_of_pos htail]

theorem trim_eq_nil_iff : trim cs = [] ↔ ∀ c ∈ cs, isBlank c = true := by
  have hends := @head?_dropWhile isBlank cs
  rw [← List.dropWhile_eq_nil_iff, trim]
  constructor
  · intro hnil
    have hall := List.rdropWhile_eq_nil_iff.1 hnil
    cases hrest : cs.dropWhile isBlank with
    | nil => rfl
    | cons c rest =>
        rw [hrest] at hall hends
        have hblank := hall c List.mem_cons_self
        rw [hends c rfl] at hblank
        cases hblank
  · intro hnil
    rw [hnil, dropEndWhile_nil]

/-! ### Strings -/

theorem isBlankText_iff {text : String} : isBlankText text = true ↔ ∀ c ∈ text.toList, isBlank c = true :=
  List.all_eq_true

theorem trimmed_trimmedEnd (text : String) : trimmed (trimmedEnd text) = trimmed text := by
  rw [trimmed, trimmedEnd, String.toList_ofList, trim_dropEndWhile, trimmed]

theorem trimmed_eq_empty_iff {text : String} : trimmed text = "" ↔ isBlankText text = true := by
  rw [isBlankText_iff, ← trim_eq_nil_iff, ← String.toList_inj, trimmed, String.toList_ofList, String.toList_empty]

theorem isBlankText_trimmedEnd (text : String) : isBlankText (trimmedEnd text) = isBlankText text := by
  rw [Bool.eq_iff_iff, ← trimmed_eq_empty_iff, trimmed_trimmedEnd, trimmed_eq_empty_iff]

theorem trimmedEnd_eq_self {text : String} (h : ∀ c ∈ text.toList.getLast?, isBlank c = false) :
    trimmedEnd text = text := by
  rw [trimmedEnd, dropEndWhile_eq_self h, String.ofList_toList]

/-!
## Columns

Cutting a line at a column. What stands before the column is the longest start of the line that has at most that many
bytes, and a column that counts the bytes of a start cuts there.
-/

theorem cutAt_byteLength_append (before after : List Char) :
    cutAt (byteLength before) (before ++ after) = (before, after) := by
  induction before with
  | nil =>
      cases after with
      | nil => rfl
      | cons c cs =>
          have hpos : ¬ c.utf8Size ≤ 0 := Nat.not_le.2 c.utf8Size_pos
          rw [List.nil_append, byteLength_nil, cutAt, if_neg hpos]
  | cons c cs ih =>
      have hle : c.utf8Size ≤ c.utf8Size + byteLength cs := Nat.le_add_right _ _
      rw [List.cons_append, byteLength_cons, cutAt, if_pos hle, Nat.add_sub_cancel_left, ih]

theorem cutAt_byteLength (cs : List Char) : cutAt (byteLength cs) cs = (cs, []) := by
  simpa using cutAt_byteLength_append cs []

/-- The longest start of a line that has at most `col` bytes. -/
structure IsBefore (col : Nat) (line before : List Char) : Prop where
  starts : before <+: line
  byteLength_le : byteLength before ≤ col
  longest : ∀ other, other <+: line → byteLength other ≤ col → other <+: before

theorem isBefore_cutAt (col : Nat) (line : List Char) : IsBefore col line (cutAt col line).1 := by
  refine ⟨⟨_, cutAt_append col line⟩, byteLength_cutAt_le col line, ?_⟩
  induction line generalizing col with
  | nil =>
      intro other hstarts _
      exact hstarts
  | cons c cs ih =>
      intro other hstarts hle
      cases other with
      | nil => exact List.nil_prefix
      | cons d other =>
          obtain ⟨rfl, hrest⟩ := List.cons_prefix_cons.1 hstarts
          rw [byteLength_cons] at hle
          have hfits : d.utf8Size ≤ col := by omega
          rw [cutAt, if_pos hfits]
          exact List.cons_prefix_cons.2 ⟨rfl, ih _ other hrest (by omega)⟩

end Transcript.Text
