import Mathlib.Data.List.Induction
import Transcript.Proofs.Host.Current
import Transcript.Proofs.Session.Numbering
import Transcript.Registry

/-!
The numbers of the marks of a host whose sessions are registered, taken off and replaced. No number is 0. Numbers in
a buffer differ as long as every session that is registered there counts on from above them. A host keeps the marks
of a session that goes, and the session that comes instead may start at 1: then the two sooner or later give out the
same number.
-/
namespace Transcript

namespace Host

variable {h : Host}

/-- No action on a host brings marks. -/
theorem ids_act (h : Host) (a : Action) (buffer : Nat) : ((h.act a).ids buffer).Sublist (h.ids buffer) := by
  have hcongr : ∀ {h' : Host}, h'.buffers.get? buffer = h.buffers.get? buffer →
      (h'.ids buffer).Sublist (h.ids buffer) := by
    intro h' hget
    rw [ids_congr hget]
  cases a with
  | createBuffer lines =>
      by_cases hnew : buffer = h.nextBuffer
      · have hget : (h.createBuffer lines).2.buffers.get? buffer = some (Buffer.ofLines lines) := by
          simp [createBuffer, hnew]
        show ((h.createBuffer lines).2.ids buffer).Sublist _
        rw [ids_of_get? hget]
        exact List.nil_sublist _
      · exact hcongr (by simp [act, createBuffer, hnew])
  | createWindow shown => exact List.Sublist.refl _
  | closeWindow window => exact List.Sublist.refl _
  | deleteBuffer deleted =>
      by_cases hgone : buffer = deleted
      · subst hgone
        show ((h.deleteBuffer buffer).ids buffer).Sublist _
        rw [ids_deleteBuffer]
        exact List.nil_sublist _
      · exact hcongr (by simp [act, deleteBuffer, hgone])
  | setCurrent place => exact hcongr (congrArg (·.get? buffer) (h.buffers_setCurrent place))
  | setLines edited start stop lines => exact h.ids_setLines edited start stop lines buffer
  | enter override => exact hcongr (congrArg (·.get? buffer) (h.buffers_enter override))
  | leave saved => exact hcongr (congrArg (·.get? buffer) (h.buffers_leave saved))

end Host

variable {α β : Type}

/-- What is asked of a registered session. -/
inductive Session.Request where
  | operate (op : Operation)
  | dispatch (lines : List String)
  | clear
  deriving DecidableEq, Repr

def Session.serve [Evaluator α] [Evaluator β] (s : Session α β) (host : Host) : Request → Session α β × Host
  | .operate op => (s.operate host op).2
  | .dispatch lines => ((s.dispatch host lines).session, (s.dispatch host lines).host)
  | .clear => s.clear host

theorem Session.changes_serve [Evaluator α] [Evaluator β] (s : Session α β) (host : Host) (request : Request) :
    s.Changes host (s.serve host request).1 (s.serve host request).2 := by
  cases request with
  | operate op => exact s.changes_operate host op
  | dispatch lines => exact s.changes_dispatch host lines
  | clear => exact .clear s host

/-- A host and the sessions that are registered for its buffers. -/
structure Desk (α β : Type) where
  host : Host
  registry : Registry α β

namespace Desk

def fresh : Desk α β := ⟨.new, {}⟩

variable [Evaluator α] [Evaluator β]

/-- What happens at a desk. A session that is registered takes the place of the one that its buffer had. -/
inductive Event (α β : Type) [Evaluator α] [Evaluator β] where
  | host (action : Host.Action)
  | attach (s : Session α β) (lived : s.Lived)
  | detach (buffer : Nat)
  | reap
  | serve (buffer : Nat) (request : Session.Request)

def act (d : Desk α β) : Event α β → Desk α β
  | .host action => { d with host := d.host.act action }
  | .attach s _ => { d with registry := (d.registry.attach s).2 }
  | .detach buffer => { d with registry := (d.registry.detach buffer).2 }
  | .reap => { d with registry := (d.registry.reap d.host).2 }
  | .serve buffer request =>
    match d.registry.get? buffer with
    | none => d
    | some s =>
      { host := (s.serve d.host request).2
        registry := d.registry.modify buffer fun _ => (s.serve d.host request).1 }

def run (d : Desk α β) (events : List (Event α β)) : Desk α β := events.foldl act d

theorem run_append (d : Desk α β) (before after : List (Event α β)) :
    d.run (before ++ after) = (d.run before).run after := List.foldl_append

/-- A session that is registered counts on from above the numbers of its buffer. -/
def IsCareful (d : Desk α β) : Event α β → Prop
  | .attach s _ => ∀ id ∈ d.host.ids s.buffer, id < s.nextMark
  | _ => True

def Careful (d : Desk α β) : List (Event α β) → Prop
  | [] => True
  | e :: rest => d.IsCareful e ∧ (d.act e).Careful rest

/-! ### What every event keeps -/

/-- Properties of numbers, and of numbers with the next one, that last when numbers go and when a session counts. -/
structure Kept (All : List Nat → Prop) (Next : List Nat → Nat → Prop) : Prop where
  sublist : ∀ {ids ids'}, ids'.Sublist ids → All ids → All ids'
  counted : ∀ {ids next ids' next'}, Counted ids next ids' next' → All ids → Next ids next → All ids' ∧ Next ids' next'

/-- The properties hold of the numbers in every buffer, and of these with the next number of the session that is
registered there. -/
structure Holds (All : List Nat → Prop) (Next : List Nat → Nat → Prop) (d : Desk α β) : Prop where
  ids : ∀ buffer, All (d.host.ids buffer)
  session : ∀ buffer s, d.registry.get? buffer = some s → s.buffer = buffer ∧ Next (d.host.ids buffer) s.nextMark

section Events

variable {All : List Nat → Prop} {Next : List Nat → Nat → Prop} {d : Desk α β}

omit [Evaluator α] [Evaluator β] in
/-- Fewer sessions. -/
theorem Holds.release (h : d.Holds All Next) {registry : Registry α β}
    (hfewer : ∀ buffer s, registry.get? buffer = some s → d.registry.get? buffer = some s) :
    Holds All Next { d with registry := registry } where
  ids := h.ids
  session buffer s hget := h.session buffer s (hfewer buffer s hget)

theorem Holds.serve (h : d.Holds All Next) (hkept : Kept All Next) (buffer : Nat) (request : Session.Request) :
    (d.act (.serve buffer request)).Holds All Next := by
  cases hget : d.registry.get? buffer with
  | none =>
      simp only [act, hget]
      exact h
  | some s =>
      obtain ⟨rfl, hnext⟩ := h.session buffer s hget
      have hnumbers := (s.changes_serve d.host request).numbers
      obtain ⟨hall', hnext'⟩ := hkept.counted hnumbers.counted (h.ids s.buffer) hnext
      simp only [act, hget]
      refine ⟨?_, ?_⟩
      · intro other
        by_cases hother : other = s.buffer
        · rw [hother]
          exact hall'
        · rw [hnumbers.ids_of_ne other hother]
          exact h.ids other
      · intro other t hother
        simp only [Registry.get?, Registry.modify, Table.get?_modify] at hother hget
        split at hother
        next hsame =>
          rw [hsame, hget] at hother
          obtain rfl := Option.some.inj hother
          rw [hsame]
          exact ⟨hnumbers.buffer, hnext'⟩
        next hother' =>
          rw [hnumbers.ids_of_ne other hother']
          exact h.session other t hother

theorem Holds.act (h : d.Holds All Next) (hkept : Kept All Next) (e : Event α β)
    (hattach : ∀ s lived, e = .attach s lived → Next (d.host.ids s.buffer) s.nextMark) :
    (d.act e).Holds All Next := by
  cases e with
  | host action =>
      have hleft := d.host.ids_act action
      refine ⟨fun buffer => hkept.sublist (hleft buffer) (h.ids buffer), ?_⟩
      intro buffer s hget
      obtain ⟨hbuffer, hnext⟩ := h.session buffer s hget
      exact ⟨hbuffer, (hkept.counted (.of_sublist (hleft buffer)) (h.ids buffer) hnext).2⟩
  | attach s lived =>
      refine ⟨h.ids, ?_⟩
      intro buffer t hget
      simp only [Desk.act, Registry.attach, Registry.get?, Table.get?_insert] at hget
      split at hget
      next hbuffer =>
        obtain rfl := Option.some.inj hget
        rw [hbuffer]
        exact ⟨rfl, hattach s lived rfl⟩
      · exact h.session buffer t hget
  | detach buffer =>
      apply h.release
      intro other s hget
      simp only [Registry.detach, Registry.get?, Table.get?_erase] at hget
      split at hget
      · cases hget
      · exact hget
  | reap =>
      apply h.release
      intro buffer s hget
      simp only [Registry.reap, Registry.get?, Table.get?_filter] at hget
      exact (Option.filter_eq_some_iff.1 hget).1
  | serve buffer request => exact h.serve hkept buffer request

end Events

/-! ### No number is 0 -/

/-- No number is 0, now or next. -/
def Numbered (d : Desk α β) : Prop := d.Holds (fun ids => ∀ id ∈ ids, 0 < id) fun _ next => 0 < next

omit [Evaluator α] [Evaluator β] in
theorem kept_pos : Kept (fun ids => ∀ id ∈ ids, 0 < id) fun _ next => 0 < next where
  sublist hleft hids := fun id hid => hids id (hleft.subset hid)
  counted hcounted hids hnext := hcounted.pos hids hnext

omit [Evaluator α] [Evaluator β] in
theorem ids_fresh (buffer : Nat) : (fresh : Desk α β).host.ids buffer = [] := by
  by_cases hone : buffer = 1
  · subst hone
    rfl
  · exact Host.ids_of_get?_none (by simp [fresh, Host.new, hone])

omit [Evaluator α] [Evaluator β] in
theorem holds_fresh {All : List Nat → Prop} {Next : List Nat → Nat → Prop} (hnil : All []) :
    (fresh : Desk α β).Holds All Next where
  ids buffer := by rwa [ids_fresh]
  session buffer s hget := by cases hget

theorem numbered_run (events : List (Event α β)) : (fresh.run events).Numbered := by
  induction events using List.reverseRecOn with
  | nil => exact holds_fresh (by simp)
  | append_singleton events e ih =>
      rw [run_append]
      refine ih.act kept_pos e ?_
      intro s lived _
      exact lived.nextMark_pos

/-! ### Numbers that differ -/

/-- In every buffer the numbers of the marks differ. -/
def Distinct (d : Desk α β) : Prop := ∀ buffer, ((d.host.marks buffer).map Mark.id).Nodup

/-- The numbers in a buffer differ, and the session that is registered for it counts on from above them. -/
def Ahead (d : Desk α β) : Prop := d.Holds List.Nodup fun ids next => ∀ id ∈ ids, id < next

omit [Evaluator α] [Evaluator β] in
theorem kept_ahead : Kept List.Nodup fun ids next => ∀ id ∈ ids, id < next where
  sublist hleft hids := hleft.nodup hids
  counted hcounted hids hnext := hcounted.ahead hids hnext

theorem Ahead.run {d : Desk α β} (h : d.Ahead) {events : List (Event α β)} (hcareful : d.Careful events) :
    (d.run events).Ahead := by
  induction events generalizing d with
  | nil => exact h
  | cons e rest ih =>
      obtain ⟨hfirst, hrest⟩ := hcareful
      refine ih (h.act kept_ahead e ?_) hrest
      rintro s lived rfl
      exact hfirst

/-- The events stay careful and numbers do not collide. -/
def StaysDistinct (d : Desk α β) : Prop := ∀ later, d.Careful later → (d.run later).Distinct

/-! ### A session that is behind -/

section Behind

variable {s : Session α β} {host : Host}

/-- A continuation on top of a buffer has nothing to go on with. -/
theorem answer_headless {b : Buffer} (hget : host.buffers.get? s.buffer = some b) {line : String} {rest : List String}
    (hlines : b.lines = line :: rest) (hline : isContinuation s.marker line = true) :
    s.answer host 1 = s.refusing host .malformedContinuation := by
  have hnone : s.statement? host 1 = none := by
    rw [Session.statement?, Host.lines_of_get? hget]
    refine Statement.resolve?_of_headless b.lines_ne_nil ?_
    have hfirst : Statement.cursorIndex b.lines 1 = 0 := by simp [Statement.cursorIndex, hlines]
    rw [hfirst, hlines]
    simpa using hline
  rw [Session.answer, hnone]

/-- Where it is put there and submitted, the refusal is marked. -/
theorem serve_headless (halive : host.hasBuffer s.buffer = true) :
    ∃ host', s.serve (host.setLines s.buffer 0 0 [String.ofList [s.marker]]) (.operate (.submit 1))
        = ({ s with nextMark := s.nextMark + 1 }, host')
      ∧ host'.hasBuffer s.buffer = true ∧ host'.ids s.buffer = host.ids s.buffer ++ [s.nextMark] := by
  obtain ⟨b, hget⟩ := Option.isSome_iff_exists.1 halive
  have hedited : (host.setLines s.buffer 0 0 [String.ofList [s.marker]]).buffers.get? s.buffer = some _ :=
    Host.get?_modifyBuffer hget _
  have hlines : (b.splice 0 0 [String.ofList [s.marker]]).lines = String.ofList [s.marker] :: b.lines := by
    simp [Buffer.splice, Buffer.editOf, Edit.stop, atLeastOneLine]
  have hanswer := answer_headless hedited hlines (by simp [isContinuation])
  have hserve := Session.operate_submit hedited 1
  rw [hanswer] at hserve
  simp only [Session.conclude, Session.refusing, Session.showing,
    Session.report_eq _ _ _ (Sink.proper_of .error Failure.malformedContinuation.message)] at hserve
  refine ⟨_, congrArg Prod.snd hserve, ?_, ?_⟩
  · rw [Host.hasBuffer_modifyBuffer]
    exact Host.hasBuffer_of_get? hedited
  · rw [Host.ids_of_get? (Host.get?_modifyBuffer hedited _), Host.ids_of_get? hget, Buffer.ids_report,
      Buffer.ids_insertion]
    rfl

/-- Such continuations, one after the other. -/
def rounds (buffer : Nat) (marker : Char) : Nat → List (Event α β)
  | 0 => []
  | n + 1 =>
    .serve buffer (.operate (.edit 0 0 [String.ofList [marker]])) :: .serve buffer (.operate (.submit 1))
      :: rounds buffer marker n

theorem careful_rounds (d : Desk α β) (buffer : Nat) (marker : Char) (n : Nat) :
    d.Careful (rounds buffer marker n) := by
  induction n generalizing d with
  | zero => trivial
  | succ n ih => exact ⟨trivial, trivial, ih _⟩

theorem act_serve {d : Desk α β} {buffer : Nat} (hget : d.registry.get? buffer = some s) (request : Session.Request) :
    d.act (.serve buffer request)
      = ⟨(s.serve d.host request).2, d.registry.modify buffer fun _ => (s.serve d.host request).1⟩ := by
  simp only [act, hget]

omit [Evaluator α] [Evaluator β] in
theorem get?_modify {registry : Registry α β} {buffer : Nat} (hget : registry.get? buffer = some s)
    (f : Session α β → Session α β) : (registry.modify buffer f).get? buffer = some (f s) := by
  rw [Registry.get?] at hget
  simp [Registry.get?, Registry.modify, hget]

/-- One of them is served. -/
theorem act_headless {d : Desk α β} (hget : d.registry.get? s.buffer = some s)
    (halive : d.host.hasBuffer s.buffer = true) :
    ∃ d' : Desk α β,
      (d.act (.serve s.buffer (.operate (.edit 0 0 [String.ofList [s.marker]])))).act
          (.serve s.buffer (.operate (.submit 1))) = d'
        ∧ d'.registry.get? s.buffer = some { s with nextMark := s.nextMark + 1 }
        ∧ d'.host.hasBuffer s.buffer = true ∧ d'.host.ids s.buffer = d.host.ids s.buffer ++ [s.nextMark] := by
  obtain ⟨host', hserve, halive', hids⟩ := serve_headless halive
  have hedit : d.act (.serve s.buffer (.operate (.edit 0 0 [String.ofList [s.marker]])))
      = ⟨d.host.setLines s.buffer 0 0 [String.ofList [s.marker]], d.registry.modify s.buffer fun _ => s⟩ :=
    act_serve hget _
  have hget' := get?_modify hget fun _ => s
  rw [hedit, act_serve hget', hserve]
  exact ⟨_, rfl, get?_modify hget' _, halive', hids⟩

/-- Each gives out one more number. -/
theorem ids_rounds {d : Desk α β} (hget : d.registry.get? s.buffer = some s)
    (halive : d.host.hasBuffer s.buffer = true) (n : Nat) :
    (d.run (rounds s.buffer s.marker n)).host.ids s.buffer = d.host.ids s.buffer ++ List.range' s.nextMark n := by
  induction n generalizing d s with
  | zero => exact (List.append_nil _).symm
  | succ n ih =>
      obtain ⟨d', hact, hget', halive', hids⟩ := act_headless hget halive
      have hrest := ih (s := { s with nextMark := s.nextMark + 1 }) hget' halive'
      calc
        _ = (d'.run (rounds s.buffer s.marker n)).host.ids s.buffer := by rw [← hact]; rfl
        _ = d'.host.ids s.buffer ++ List.range' (s.nextMark + 1) n := hrest
        _ = _ := by rw [hids, List.append_assoc, List.range'_succ]; rfl

/-- A session that does not count on from above a number gives it out again. -/
theorem not_staysDistinct {d : Desk α β} (hget : d.registry.get? s.buffer = some s)
    (halive : d.host.hasBuffer s.buffer = true) {id : Nat} (hid : id ∈ d.host.ids s.buffer) (hbehind : s.nextMark ≤ id) :
    ¬ d.StaysDistinct := by
  intro hstays
  have hdistinct := hstays _ (d.careful_rounds s.buffer s.marker (id - s.nextMark + 1)) s.buffer
  change ((d.run _).host.ids s.buffer).Nodup at hdistinct
  rw [ids_rounds hget halive] at hdistinct
  have hagain : id ∈ List.range' s.nextMark (id - s.nextMark + 1) := by
    rw [List.mem_range'_1]
    omega
  exact (List.nodup_append.1 hdistinct).2.2 id hid id hagain rfl

end Behind

/-- **Numbers of marks.** No number is 0. Numbers in a buffer differ as long as every session is registered above the
numbers of its buffer. A session that is not collides with them, unless its buffer is gone. -/
theorem distinct_run (events : List (Event α β)) :
    (∀ buffer, ∀ m ∈ (fresh.run events).host.marks buffer, m.id ≠ 0)
      ∧ (fresh.Careful events → (fresh.run events).Distinct
        ∧ ∀ s lived, (fresh.run events).host.hasBuffer s.buffer = true →
          (((fresh.run events).act (.attach s lived)).StaysDistinct
            ↔ ∀ m ∈ (fresh.run events).host.marks s.buffer, m.id < s.nextMark)) := by
  refine ⟨?_, ?_⟩
  · intro buffer m hm
    exact Nat.ne_of_gt ((numbered_run events).ids buffer m.id (List.mem_map_of_mem hm))
  · intro hcareful
    have hfresh : (fresh : Desk α β).Ahead := holds_fresh List.nodup_nil
    have hahead := hfresh.run hcareful
    refine ⟨hahead.ids, ?_⟩
    intro s lived halive
    constructor
    · intro hstays m hm
      by_contra hbehind
      have hget : ((fresh.run events).act (.attach s lived)).registry.get? s.buffer = some s := by
        simp [act, Registry.attach, Registry.get?]
      exact not_staysDistinct hget halive (List.mem_map_of_mem hm) (Nat.le_of_not_lt hbehind) hstays
    · intro habove later hlater
      refine (Ahead.run (hahead.act kept_ahead (.attach s lived) ?_) hlater).ids
      rintro t lived' heq id hid
      obtain rfl := (Event.attach.inj heq)
      obtain ⟨m, hm, rfl⟩ := List.mem_map.1 hid
      exact habove m hm

theorem lived_new (buffer : Nat) (settings : Settings) : (StandardSession.new buffer settings).Lived :=
  .start buffer settings _ _

/-- A session is registered, and `/w` is submitted to it. -/
def shownWindow : List (Event Script Ex) :=
  [.attach (StandardSession.new 1 {}) (lived_new 1 {}), .serve 1 (.operate (.edit 0 1 ["/w"])),
    .serve 1 (.operate (.submit 1))]

/-- A new session in its place gives the number of its mark out again. -/
theorem distinct_run_up_to_replacement :
    (fresh.run shownWindow).host.marks 1 = [⟨1, 2, 2, .info⟩] ∧ (fresh.run shownWindow).Distinct
      ∧ ¬ ((fresh.run shownWindow).act (.attach (StandardSession.new 1 {}) (lived_new 1 {}))).StaysDistinct := by
  have hmarks : (fresh.run shownWindow).host.marks 1 = [⟨1, 2, 2, .info⟩] := by decide +kernel
  have hcareful : fresh.Careful shownWindow := by
    refine ⟨?_, trivial, trivial, trivial⟩
    intro id hid
    rw [ids_fresh] at hid
    cases hid
  obtain ⟨hdistinct, hreplaced⟩ := (distinct_run shownWindow).2 hcareful
  refine ⟨hmarks, hdistinct, ?_⟩
  rw [hreplaced _ _ (by decide +kernel)]
  intro habove
  have hlt := habove ⟨1, 2, 2, .info⟩ (by rw [show (StandardSession.new 1 {}).buffer = 1 from rfl, hmarks]; simp)
  exact absurd hlt (by decide)

end Desk

end Transcript
