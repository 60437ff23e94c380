import Mathlib.Data.List.DropRight
import Transcript.History

/-!
Walks through a history. A caller appends statements, resets, and moves: to a move it hands the lines that the
last move gave while an entry is shown, and an edit of its own otherwise. Whatever the calls are, the entries are
the statements appended last, as many as there is room for. A move goes to the adjacent entry and gives its lines.
The one that leaves the newest entry gives the edit that was handed over when the recall began.
-/
namespace Transcript.History

/-- The index of the entry that is shown; none at the edit. -/
def cursor (h : History) : Option Nat := h.shown.map Recall.index

/-- A move over `entries`, by the cursor before it, the lines handed to it, the cursor after it and the lines that
it gives. The recall began with the lines `edit`. -/
inductive Turn (entries : List Lines) (edit : Lines) :
    Direction → Option Nat → Lines → Option Nat → Lines → Prop where
  | toNewest {i : Nat} {entry : Lines} (handed : Lines) (hlast : i + 1 = entries.length)
      (hentry : entries[i]? = some entry) : Turn entries edit .backward none handed (some i) entry
  | toOlder {i : Nat} {entry : Lines} (handed : Lines) (hentry : entries[i]? = some entry) :
      Turn entries edit .backward (some (i + 1)) handed (some i) entry
  | atOldest (handed : Lines) : Turn entries edit .backward (some 0) handed (some 0) handed
  | toNewer {i : Nat} {entry : Lines} (handed : Lines) (hentry : entries[i + 1]? = some entry) :
      Turn entries edit .forward (some i) handed (some (i + 1)) entry
  | toEdit {i : Nat} (handed : Lines) (hlast : i + 1 = entries.length) :
      Turn entries edit .forward (some i) handed none edit
  | withoutEntries (handed : Lines) (hempty : entries = []) : Turn entries edit .backward none handed none handed
  | atEdit (handed : Lines) : Turn entries edit .forward none handed none handed

/-- The calls of a history. The edit of a move counts only while no entry is shown. -/
inductive Call where
  | append (statement : Lines)
  | move (direction : Direction) (edit : Lines)
  | reset

/-- The statement that a call appends. -/
def Call.statement? : Call → Option Lines
  | .append statement => some statement
  | _ => none

/-- A history with what its caller remembers: the lines that the last move gave, and the edit handed to the last move
that found no entry shown. -/
structure Caller where
  history : History
  given : Lines := []
  edit : Lines := []

namespace Caller

/-- The lines that the caller hands to a move. -/
def handed (c : Caller) (edit : Lines) : Lines := if c.history.isRecalling then c.given else edit

def call (c : Caller) : Call → Caller
  | .append statement => { c with history := c.history.append statement }
  | .move direction edit =>
    let (lines, history) := c.history.move direction (c.handed edit)
    { history := history
      given := lines
      edit := if c.history.isRecalling then c.edit else edit }
  | .reset => { c with history := c.history.reset }

/-- The caller after calls of a fresh history. -/
def ofCalls (capacity : Nat) (calls : List Call) : Caller := calls.foldl call { history := .new capacity }

end Caller

/-! ### Single calls -/

theorem entries_append (h : History) (statement : Lines) :
    (h.append statement).entries = (h.entries ++ [statement]).rtake h.capacity := rfl

/-- A statement that is appended is the last entry. -/
theorem entries_append_of_room {h : History} (hroom : 0 < h.capacity) (statement : Lines) :
    (h.append statement).entries = h.entries.rtake (h.capacity - 1) ++ [statement] := by
  have hcapacity : h.capacity = h.capacity - 1 + 1 := (Nat.sub_add_cancel hroom).symm
  rw [entries_append]
  conv_lhs => rw [hcapacity]
  rw [List.rtake_concat_succ]

/-- Room for one more statement is room for the last ones of those before it. -/
theorem rtake_rtake_concat {α : Type} (l : List α) (x : α) (n : Nat) :
    (l.rtake n ++ [x]).rtake n = (l ++ [x]).rtake n := by
  cases n with
  | zero => simp
  | succ n =>
      rw [List.rtake_concat_succ, List.rtake_concat_succ, List.rtake_eq_reverse_take_reverse,
        List.rtake_eq_reverse_take_reverse, List.rtake_eq_reverse_take_reverse, List.reverse_reverse,
        List.take_take]
      simp

theorem isRecalling_eq_false_iff {h : History} : h.isRecalling = false ↔ h.shown = none := by
  simp [isRecalling]

/-- A move changes nothing but what is shown. -/
theorem move_eq_with (h : History) (direction : Direction) (current : Lines) :
    (h.move direction current).2 = { h with shown := (h.move direction current).2.shown } := by
  unfold move
  split
  · split <;> rfl
  · rfl
  · rfl
  · rfl
  · split <;> rfl

theorem entries_move (h : History) (direction : Direction) (current : Lines) :
    (h.move direction current).2.entries = h.entries := by
  rw [move_eq_with]

theorem capacity_move (h : History) (direction : Direction) (current : Lines) :
    (h.move direction current).2.capacity = h.capacity := by
  rw [move_eq_with]

section Moves

variable {h : History} {i : Nat} {edit : Lines} (current : Lines)

theorem move_backward_of_empty (hshown : h.shown = none) (hempty : h.entries = []) :
    h.move .backward current = (current, h) := by
  simp only [move, hshown, hempty, List.isEmpty_nil, if_true]

theorem move_backward_of_edit (hshown : h.shown = none) (hlast : i + 1 = h.entries.length) :
    h.move .backward current = h.showEntry i current := by
  have hne : ¬ h.entries.isEmpty = true := by
    rw [List.isEmpty_iff_length_eq_zero]
    omega
  simp only [move, hshown, if_neg hne, ← hlast, Nat.add_sub_cancel]

theorem move_backward_of_oldest (hshown : h.shown = some ⟨0, edit⟩) :
    h.move .backward current = (current, h) := by
  simp only [move, hshown]

theorem move_backward_of_entry (hshown : h.shown = some ⟨i + 1, edit⟩) :
    h.move .backward current = h.showEntry i edit := by
  simp only [move, hshown]

theorem move_forward_of_edit (hshown : h.shown = none) : h.move .forward current = (current, h) := by
  simp only [move, hshown]

theorem move_forward_of_entry (hshown : h.shown = some ⟨i, edit⟩) (hlast : i + 1 < h.entries.length) :
    h.move .forward current = h.showEntry (i + 1) edit := by
  simp only [move, hshown, if_pos hlast]

theorem move_forward_of_newest (hshown : h.shown = some ⟨i, edit⟩) (hlast : i + 1 = h.entries.length) :
    h.move .forward current = (edit, { h with shown := none }) := by
  simp only [move, hshown, if_neg (show ¬ i + 1 < h.entries.length by omega)]

end Moves

/-- What is shown after a move is an entry that is there. It hides what was hidden before, or the lines that the recall
began with. -/
theorem shown_move {h : History} (hindex : ∀ i edit, h.shown = some ⟨i, edit⟩ → i < h.entries.length)
    {direction : Direction} {current : Lines} {j : Nat} {hidden : Lines}
    (hshown : (h.move direction current).2.shown = some ⟨j, hidden⟩) :
    j < h.entries.length ∧ (hidden = current ∨ ∃ i, h.shown = some ⟨i, hidden⟩) := by
  unfold move at hshown
  split at hshown
  next hnone =>
    split at hshown
    · rw [hnone] at hshown
      cases hshown
    next hne =>
      cases hshown
      have hpos := List.length_pos_iff.2 (by simpa using hne)
      exact ⟨by omega, Or.inl rfl⟩
  next holdest => exact ⟨hindex j hidden hshown, Or.inr ⟨j, hshown⟩⟩
  next i edit hentry =>
    cases hshown
    exact ⟨Nat.lt_of_succ_lt (hindex _ _ hentry), Or.inr ⟨_, hentry⟩⟩
  next hnone =>
    rw [hnone] at hshown
    cases hshown
  next i edit hentry =>
    split at hshown
    next hnewer =>
      cases hshown
      exact ⟨hnewer, Or.inr ⟨_, hentry⟩⟩
    · cases hshown

theorem getElem?_showEntry {h : History} {i : Nat} (hi : i < h.entries.length) (edit : Lines) :
    h.entries[i]? = some (h.showEntry i edit).1 := by
  simp [showEntry, hi]

/-! ### Walks -/

namespace Caller

/-- What holds of a caller whose calls appended the statements `appended`: the entry that is shown has the lines that
were given last, and the edit it hides is the one that the caller remembers. -/
structure Sound (capacity : Nat) (appended : List Lines) (c : Caller) : Prop where
  room : c.history.capacity = max capacity 1
  entries : c.history.entries = appended.rtake (max capacity 1)
  shown : ∀ i edit, c.history.shown = some ⟨i, edit⟩ → c.history.entries[i]? = some c.given ∧ edit = c.edit

variable {capacity : Nat} {appended : List Lines} {c : Caller}

/-- A move takes a turn, and leaves an entry shown only with its lines and over the edit that the caller
remembers. -/
theorem Sound.turn (h : c.Sound capacity appended) (direction : Direction) (edit : Lines) {c' : Caller}
    (hc' : c.call (.move direction edit) = c') :
    Turn c.history.entries c.edit direction c.history.cursor (c.handed edit) c'.history.cursor c'.given
      ∧ ∀ i e, c'.history.shown = some ⟨i, e⟩ → c.history.entries[i]? = some c'.given ∧ e = c'.edit := by
  subst hc'
  rw [call]
  cases hshown : c.history.shown with
  | none =>
      have hcursor : c.history.cursor = none := by simp [cursor, hshown]
      have hrecalling : c.history.isRecalling = false := by simp [isRecalling, hshown]
      have hhanded : c.handed edit = edit := by simp [handed, hrecalling]
      cases direction with
      | forward =>
          rw [move_forward_of_edit _ hshown]
          simp only [hcursor, hshown]
          exact ⟨.atEdit _, by simp⟩
      | backward =>
          rcases Nat.eq_zero_or_pos c.history.entries.length with hempty | hpos
          · have hnil := List.length_eq_zero_iff.1 hempty
            rw [move_backward_of_empty _ hshown hnil]
            simp only [hcursor, hshown]
            exact ⟨.withoutEntries _ hnil, by simp⟩
          · obtain ⟨i, hi⟩ : ∃ i, i + 1 = c.history.entries.length := ⟨_, Nat.sub_add_cancel hpos⟩
            have hentry := getElem?_showEntry (show i < c.history.entries.length by omega) (c.handed edit)
            rw [move_backward_of_edit _ hshown hi, hcursor]
            refine ⟨.toNewest _ hi hentry, ?_⟩
            rintro j e hj
            cases hj
            exact ⟨hentry, by simp [hhanded, hrecalling]⟩
  | some r =>
      obtain ⟨i, e⟩ := r
      obtain ⟨hgiven, rfl⟩ := h.shown i e hshown
      have hcursor : c.history.cursor = some i := by simp [cursor, hshown]
      have hrecalling : c.history.isRecalling = true := by simp [isRecalling, hshown]
      have hi : i < c.history.entries.length := (List.getElem?_eq_some_iff.1 hgiven).1
      rw [hcursor]
      cases direction with
      | backward =>
          cases i with
          | zero =>
              rw [move_backward_of_oldest _ hshown]
              simp only [hcursor, handed, hrecalling, if_true]
              exact ⟨.atOldest _, h.shown⟩
          | succ i =>
              have hentry := getElem?_showEntry (show i < c.history.entries.length by omega) c.edit
              rw [move_backward_of_entry _ hshown]
              refine ⟨.toOlder _ hentry, ?_⟩
              rintro j e hj
              cases hj
              exact ⟨hentry, by simp [hrecalling]⟩
      | forward =>
          by_cases hlast : i + 1 < c.history.entries.length
          · have hentry := getElem?_showEntry hlast c.edit
            rw [move_forward_of_entry _ hshown hlast]
            refine ⟨.toNewer _ hentry, ?_⟩
            rintro j e hj
            cases hj
            exact ⟨hentry, by simp [hrecalling]⟩
          · rw [move_forward_of_newest _ hshown (by omega)]
            exact ⟨.toEdit _ (by omega), by simp⟩

/-- What holds of a caller holds after one more call. -/
theorem Sound.call (h : c.Sound capacity appended) (x : Call) :
    (c.call x).Sound capacity (appended ++ x.statement?.toList) := by
  cases x with
  | append statement =>
      refine ⟨h.room, ?_, by simp [Caller.call, History.append]⟩
      show (c.history.append statement).entries = _
      rw [entries_append, h.room, h.entries, rtake_rtake_concat]
      rfl
  | move direction edit =>
      have hentries : (c.call (.move direction edit)).history.entries = c.history.entries :=
        entries_move c.history direction (c.handed edit)
      refine ⟨(capacity_move c.history direction (c.handed edit)).trans h.room, ?_, ?_⟩
      · rw [hentries, h.entries]
        simp [Call.statement?]
      · rw [hentries]
        exact (h.turn direction edit rfl).2
  | reset =>
      refine ⟨h.room, ?_, by simp [Caller.call, History.reset]⟩
      show c.history.entries = _
      rw [h.entries]
      simp [Call.statement?]

/-- Induction on the calls, the last one last. -/
theorem sound_ofCalls (capacity : Nat) (calls : List Call) :
    (ofCalls capacity calls).Sound capacity (calls.filterMap Call.statement?) := by
  induction calls using List.reverseRecOn with
  | nil => exact ⟨rfl, by simp [ofCalls, History.new], by simp [ofCalls, History.new]⟩
  | append_singleton calls x ih =>
      have hx := ih.call x
      have hcalls : ofCalls capacity (calls ++ [x]) = (ofCalls capacity calls).call x := by
        simp [ofCalls]
      have hstatements : (calls ++ [x]).filterMap Call.statement?
          = calls.filterMap Call.statement? ++ x.statement?.toList := by
        cases hs : x.statement? <;> simp [hs]
      rwa [hcalls, hstatements]

end Caller

/-- **A history is a walk over the statements appended last.** Whatever the calls before, the entries are the last
statements that there is room for, the lines given while an entry is shown are those of the entry, and the next
move takes a turn that leaves the entries as they are. -/
theorem turn_of_calls (capacity : Nat) (calls : List Call) :
    let c := Caller.ofCalls capacity calls
    let appended := calls.filterMap Call.statement?
    c.history.entries = appended.rtake (max capacity 1)
      ∧ c.history.size = min appended.length (max capacity 1)
      ∧ (∀ i, c.history.cursor = some i → c.history.entries[i]? = some c.given)
      ∧ ∀ direction edit,
          let c' := c.call (.move direction edit)
          Turn c.history.entries c.edit direction c.history.cursor (c.handed edit) c'.history.cursor c'.given
            ∧ c'.history.entries = c.history.entries := by
  intro c appended
  have hsound := Caller.sound_ofCalls capacity calls
  refine ⟨hsound.entries, ?_, ?_, ?_⟩
  · rw [size, hsound.entries, List.rtake, List.length_drop]
    show _ = min (calls.filterMap Call.statement?).length _
    omega
  · intro i hi
    obtain ⟨⟨i, edit⟩, hshown, rfl⟩ := Option.map_eq_some_iff.1 hi
    exact (hsound.shown i edit hshown).1
  · intro direction edit
    exact ⟨(hsound.turn direction edit rfl).1, entries_move c.history direction (c.handed edit)⟩

end Transcript.History
