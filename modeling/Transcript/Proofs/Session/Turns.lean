import Mathlib.Logic.Function.Basic
import Transcript.Console
import Transcript.Proofs.Session.Operation

/-!
Sessions that take turns on one host. Each has a buffer of its own, and none quits. What a session answers, the state
that it is in and the contents of its buffer are then those of its own operations done one after the other with
nothing in between. So the order of the turns does not show, as long as each session keeps its own.
-/
namespace Transcript

/-- Sessions on one host. -/
structure Workspace {ι : Type} (α β : ι → Type) where
  session : (i : ι) → Session (α i) (β i)
  host : Host

/-- What belongs to one of several owners, in order. -/
def partOf {ι γ : Type} [DecidableEq ι] (i : ι) (items : List (ι × γ)) : List γ :=
  items.filterMap fun item => if item.1 = i then some item.2 else none

section PartOf

variable {ι γ : Type} [DecidableEq ι]

theorem partOf_cons_self (i : ι) (x : γ) (items : List (ι × γ)) : partOf i ((i, x) :: items) = x :: partOf i items := by
  simp [partOf]

theorem partOf_cons_of_ne {i j : ι} (h : i ≠ j) (x : γ) (items : List (ι × γ)) :
    partOf j ((i, x) :: items) = partOf j items := by
  simp [partOf, h]

end PartOf

/-! ### A session by itself -/

namespace Session

variable {α β : Type} [Evaluator α] [Evaluator β]

/-- None of the operations that were answered ended the session. -/
def Lasts (answers : List Operation.Answer) : Prop := ∀ answer ∈ answers, answer.quits = false

/-- Operations of one session, with nothing in between. -/
def operateAll (s : Session α β) (host : Host) : List Operation → List Operation.Answer × Session α β × Host
  | [] => ([], s, host)
  | op :: rest =>
    let (answer, s, host) := s.operate host op
    let (answers, s, host) := s.operateAll host rest
    (answer :: answers, s, host)

theorem operateAll_cons (s : Session α β) (host : Host) (op : Operation) (rest : List Operation) :
    s.operateAll host (op :: rest)
      = ((s.operate host op).1 :: ((s.operate host op).2.1.operateAll (s.operate host op).2.2 rest).1,
          ((s.operate host op).2.1.operateAll (s.operate host op).2.2 rest).2) := rfl

/-- What operations depend on, by induction on them. -/
theorem operateAll_alikeAt {s : Session α β} {host host' : Host} (ha : Host.AlikeAt s.buffer host host')
    {ops : List Operation} (hlasts : Lasts (s.operateAll host ops).1) :
    (s.operateAll host' ops).1 = (s.operateAll host ops).1
      ∧ (s.operateAll host' ops).2.1 = (s.operateAll host ops).2.1
      ∧ Host.AlikeAt s.buffer (s.operateAll host ops).2.2 (s.operateAll host' ops).2.2 := by
  induction ops generalizing s host host' with
  | nil => exact ⟨rfl, rfl, ha⟩
  | cons op rest ih =>
      rw [operateAll_cons] at hlasts
      obtain ⟨hfirst, hrest⟩ := List.forall_mem_cons.1 hlasts
      obtain ⟨hanswer, hsession, hhost⟩ := operate_alikeAt ha op
      have hbuffer := s.buffer_operate host op
      have hnext := hhost hfirst
      rw [← hbuffer] at hnext
      obtain ⟨hanswers, hlast, hend⟩ := ih hnext hrest
      rw [hbuffer] at hend
      rw [operateAll_cons, operateAll_cons, hanswer, hsession]
      exact ⟨congrArg (_ :: ·) hanswers, hlast, hend⟩

end Session

/-! ### Turns -/

namespace Workspace

variable {ι : Type} [DecidableEq ι] {α β : ι → Type} [∀ i, Evaluator (α i)] [∀ i, Evaluator (β i)]

/-- One of the sessions operates. -/
def turn (p : Workspace α β) (i : ι) (op : Operation) : Operation.Answer × Workspace α β :=
  let (answer, s, host) := (p.session i).operate p.host op
  (answer, { session := Function.update p.session i s, host := host })

/-- The sessions operate in turn. Each answer is given with the session that it belongs to. -/
def run (p : Workspace α β) : List (ι × Operation) → List (ι × Operation.Answer) × Workspace α β
  | [] => ([], p)
  | (i, op) :: rest =>
    let (answer, p) := p.turn i op
    let (answers, p) := p.run rest
    ((i, answer) :: answers, p)

/-- The operations of one session, as if there were no other. -/
def alone (p : Workspace α β) (i : ι) (ops : List Operation) :
    List Operation.Answer × Session (α i) (β i) × Host :=
  (p.session i).operateAll p.host ops

/-- The sessions have buffers of their own, and the current place of the host is there. -/
structure Ready (p : Workspace α β) : Prop where
  current : p.host.HasCurrent
  distinct : ∀ i j, i ≠ j → (p.session i).buffer ≠ (p.session j).buffer

variable {p : Workspace α β} {i j : ι} {op : Operation}

theorem run_cons (p : Workspace α β) (i : ι) (op : Operation) (rest : List (ι × Operation)) :
    p.run ((i, op) :: rest)
      = ((i, (p.turn i op).1) :: ((p.turn i op).2.run rest).1, ((p.turn i op).2.run rest).2) := rfl

theorem session_turn_self (p : Workspace α β) (i : ι) (op : Operation) :
    (p.turn i op).2.session i = ((p.session i).operate p.host op).2.1 := Function.update_self _ _ _

theorem session_turn_of_ne (h : j ≠ i) (p : Workspace α β) (op : Operation) :
    (p.turn i op).2.session j = p.session j := Function.update_of_ne h _ _

theorem buffer_turn (p : Workspace α β) (i : ι) (op : Operation) (j : ι) :
    ((p.turn i op).2.session j).buffer = (p.session j).buffer := by
  by_cases h : j = i
  · subst h
    rw [session_turn_self]
    exact (p.session j).buffer_operate p.host op
  · rw [session_turn_of_ne h]

theorem Ready.confined (h : p.Ready) (hquit : (p.turn i op).1.quits = false) :
    Host.Confined (p.session i).buffer p.host (p.turn i op).2.host :=
  (p.session i).confined_operate h.current hquit

theorem Ready.turn (h : p.Ready) (hquit : (p.turn i op).1.quits = false) : (p.turn i op).2.Ready where
  current := h.current.congr (h.confined hquit).alike
  distinct j k hne := by
    rw [buffer_turn, buffer_turn]
    exact h.distinct j k hne

theorem alone_cons (p : Workspace α β) (i : ι) (op : Operation) (ops : List Operation) :
    p.alone i (op :: ops)
      = ((p.turn i op).1 :: ((p.turn i op).2.alone i ops).1, ((p.turn i op).2.alone i ops).2) := by
  rw [alone, alone, session_turn_self, Session.operateAll_cons]
  rfl

theorem Ready.alikeAt (h : p.Ready) (hquit : (p.turn i op).1.quits = false) (hne : j ≠ i) :
    Host.AlikeAt (p.session j).buffer p.host (p.turn i op).2.host :=
  (h.confined hquit).alikeAt (h.distinct j i hne)

/-- In a run, a session answers, changes and writes its buffer as it does alone. -/
structure Follows (p : Workspace α β) (turns : List (ι × Operation)) (i : ι) : Prop where
  lasts : Session.Lasts (p.alone i (partOf i turns)).1
  answers : partOf i (p.run turns).1 = (p.alone i (partOf i turns)).1
  session : (p.run turns).2.session i = (p.alone i (partOf i turns)).2.1
  get? : (p.run turns).2.host.buffers.get? (p.session i).buffer
    = (p.alone i (partOf i turns)).2.2.buffers.get? (p.session i).buffer

theorem Follows.own_turn {rest : List (ι × Operation)} (hquit : (p.turn i op).1.quits = false)
    (h : (p.turn i op).2.Follows rest i) : p.Follows ((i, op) :: rest) i where
  lasts := by
    rw [partOf_cons_self, alone_cons]
    exact List.forall_mem_cons.2 ⟨hquit, h.lasts⟩
  answers := by rw [run_cons, partOf_cons_self, partOf_cons_self, alone_cons, h.answers]
  session := by rw [run_cons, partOf_cons_self, alone_cons, h.session]
  get? := by
    have hget := h.get?
    rw [buffer_turn] at hget
    rw [run_cons, partOf_cons_self, alone_cons, hget]

theorem Follows.other_turn {rest : List (ι × Operation)} (hready : p.Ready) (hquit : (p.turn i op).1.quits = false)
    (hne : j ≠ i) (h : (p.turn i op).2.Follows rest j) : p.Follows ((i, op) :: rest) j := by
  obtain ⟨hlasts, hanswers, hsession, hget⟩ := h
  rw [buffer_turn] at hget
  rw [alone, session_turn_of_ne hne] at hlasts hanswers hsession hget
  obtain ⟨hsame, hsame', hend⟩ := Session.operateAll_alikeAt (hready.alikeAt hquit hne).symm hlasts
  refine ⟨?_, ?_, ?_, ?_⟩
  · rw [partOf_cons_of_ne hne.symm, alone, hsame]
    exact hlasts
  · rw [run_cons, partOf_cons_of_ne hne.symm, partOf_cons_of_ne hne.symm, hanswers, alone, hsame]
  · rw [run_cons, partOf_cons_of_ne hne.symm, hsession, alone, hsame']
  · rw [run_cons, partOf_cons_of_ne hne.symm, hget, alone, hend.get?]

/-- A session that lasts by itself still does after a turn, its own or another's. -/
theorem Ready.lasts_alone {rest : List (ι × Operation)} (h : p.Ready) (hquit : (p.turn i op).1.quits = false)
    (hlasts : Session.Lasts (p.alone j (partOf j ((i, op) :: rest))).1) :
    Session.Lasts ((p.turn i op).2.alone j (partOf j rest)).1 := by
  by_cases hne : j = i
  · subst hne
    rw [partOf_cons_self, alone_cons] at hlasts
    intro answer hmem
    exact hlasts answer (List.mem_cons_of_mem _ hmem)
  · rw [partOf_cons_of_ne (Ne.symm hne)] at hlasts
    obtain ⟨hsame, -⟩ := Session.operateAll_alikeAt (h.alikeAt hquit hne) hlasts
    rw [alone, session_turn_of_ne hne, hsame]
    exact hlasts

/-- Induction on the turns. That none quits may be known of the run or of each session by itself: after one turn it
is still known of the same. -/
theorem Ready.follows (h : p.Ready) {turns : List (ι × Operation)}
    (hlasts : (∀ answered ∈ (p.run turns).1, answered.2.quits = false)
      ∨ ∀ i, Session.Lasts (p.alone i (partOf i turns)).1) :
    p.host.Alike (p.run turns).2.host ∧ ∀ i, p.Follows turns i := by
  induction turns generalizing p with
  | nil =>
      refine ⟨Host.Alike.refl p.host, fun i => ⟨?_, rfl, rfl, rfl⟩⟩
      intro answer hmem
      exact absurd hmem List.not_mem_nil
  | cons t rest ih =>
      obtain ⟨i, op⟩ := t
      have hquit : (p.turn i op).1.quits = false := by
        rcases hlasts with hrun | halone
        · exact hrun _ List.mem_cons_self
        · have hi := halone i
          rw [partOf_cons_self, alone_cons] at hi
          exact hi _ List.mem_cons_self
      have hrest : (∀ answered ∈ ((p.turn i op).2.run rest).1, answered.2.quits = false)
          ∨ ∀ j, Session.Lasts ((p.turn i op).2.alone j (partOf j rest)).1 := by
        rcases hlasts with hrun | halone
        · exact Or.inl fun answered hmem => hrun answered (List.mem_cons_of_mem _ hmem)
        · exact Or.inr fun j => h.lasts_alone hquit (halone j)
      obtain ⟨halike, hfollows⟩ := ih (h.turn hquit) hrest
      refine ⟨(h.confined hquit).alike.trans halike, fun j => ?_⟩
      by_cases hne : j = i
      · subst hne
        exact (hfollows j).own_turn hquit
      · exact (hfollows j).other_turn h hquit hne

/-- **The order of turns does not show.** Let sessions with buffers of their own take turns on a host whose current
buffer and window are valid, so that none quits. In any other order that keeps each session's own, every session
gets the same answers and ends in the same state, its buffer has the same lines and marks, and the current place is
the same. -/
theorem run_of_partOf_eq (hreached : p.host.Reached) (hbuffer : p.host.hasBuffer p.host.current.buffer = true)
    (hwindow : p.host.hasWindow p.host.current.window = true)
    (hdistinct : ∀ i j, i ≠ j → (p.session i).buffer ≠ (p.session j).buffer) {turns turns' : List (ι × Operation)}
    (hlasts : ∀ answered ∈ (p.run turns).1, answered.2.quits = false)
    (hsame : ∀ i, partOf i turns' = partOf i turns) :
    (∀ i, partOf i (p.run turns').1 = partOf i (p.run turns).1
        ∧ (p.run turns').2.session i = (p.run turns).2.session i
        ∧ (p.run turns').2.host.buffers.get? (p.session i).buffer
          = (p.run turns).2.host.buffers.get? (p.session i).buffer)
      ∧ (p.run turns').2.host.current = (p.run turns).2.host.current := by
  have hready : p.Ready := ⟨hreached.hasCurrent hbuffer hwindow, hdistinct⟩
  obtain ⟨halike, hfollows⟩ := hready.follows (Or.inl hlasts)
  have hlasts' : ∀ i, Session.Lasts (p.alone i (partOf i turns')).1 := by
    intro i
    rw [hsame i]
    exact (hfollows i).lasts
  obtain ⟨halike', hfollows'⟩ := hready.follows (Or.inr hlasts')
  refine ⟨?_, halike'.current.trans halike.current.symm⟩
  intro i
  obtain ⟨-, hanswers, hsession, hget⟩ := hfollows i
  obtain ⟨-, hanswers', hsession', hget'⟩ := hfollows' i
  rw [hsame i] at hanswers' hsession' hget'
  exact ⟨hanswers'.trans hanswers.symm, hsession'.trans hsession.symm, hget'.trans hget.symm⟩

/-- Two sessions with commands that make each evaluate in the buffer of the other. -/
def crossed : Workspace (fun _ : Bool => Script) (fun _ => Ex) where
  session first := StandardSession.new (if first then 1 else 2) {}
  host := ((Host.new.modifyBuffer 1 fun _ => Buffer.ofLines ["/b 2"]).createBuffer ["/b 1"]).2

/-- The second session submits its command between two submissions of the first one. -/
def crossedTurns : List (Bool × Operation) :=
  [(true, .submit 1), (true, .edit 2 3 ["x = 1"]), (false, .submit 1), (true, .submit 3), (false, .move 3 .backward)]

/-- The second session is done before the first one begins. -/
def crossedTurnsLater : List (Bool × Operation) :=
  [(false, .submit 1), (false, .move 3 .backward), (true, .submit 1), (true, .edit 2 3 ["x = 1"]), (true, .submit 3)]

theorem run_of_partOf_eq_crossed :
    (∀ i, partOf i (crossed.run crossedTurnsLater).1 = partOf i (crossed.run crossedTurns).1
        ∧ (crossed.run crossedTurnsLater).2.session i = (crossed.run crossedTurns).2.session i
        ∧ (crossed.run crossedTurnsLater).2.host.buffers.get? (crossed.session i).buffer
          = (crossed.run crossedTurns).2.host.buffers.get? (crossed.session i).buffer)
      ∧ (crossed.run crossedTurnsLater).2.host.current = (crossed.run crossedTurns).2.host.current := by
  have hreached : crossed.host.Reached := .createBuffer (.modifyBuffer .new 1 _) ["/b 1"]
  have hlasts : ∀ answered ∈ (crossed.run crossedTurns).1, answered.2.quits = false := by decide +kernel
  have hsame : ∀ i, partOf i crossedTurnsLater = partOf i crossedTurns := by decide
  exact run_of_partOf_eq hreached (by rfl) (by rfl) (by decide) hlasts hsame

end Workspace

end Transcript
