import Transcript.Proofs.Registry
import Transcript.Proofs.Session.Closed

/-!
Reaping. Whatever happens to a host and to the sessions that are registered for it, each is registered under the number
of its own buffer. So the numbers that reaping gives are those of the buffers that are gone, and to take the sessions
under these numbers off, one by one, is to keep those that are alive, as they are.
-/
namespace Transcript

variable {α β : Type}

namespace Registry

variable {r : Registry α β} {host : Host} {buffer : Nat}

theorem ext_get? {r' : Registry α β} (h : ∀ buffer, r.get? buffer = r'.get? buffer) : r = r' := by
  obtain ⟨sessions⟩ := r
  obtain ⟨sessions'⟩ := r'
  obtain rfl : sessions = sessions' := Table.ext_get? h
  rfl

/-- A session that is registered is found under the number of its buffer, and all others where they were. -/
theorem get?_attach (r : Registry α β) (s : Session α β) (buffer : Nat) :
    (r.attach s).2.get? buffer = if buffer = s.buffer then some s else r.get? buffer :=
  Table.get?_insert _ _ _ _

theorem get?_detach (r : Registry α β) (gone buffer : Nat) :
    (r.detach gone).2.get? buffer = if buffer = gone then none else r.get? buffer :=
  Table.get?_erase _ _ _

theorem get?_reap (r : Registry α β) (host : Host) (buffer : Nat) :
    (r.reap host).2.get? buffer = (r.get? buffer).filter (·.isAlive host) :=
  Table.get?_filter _ _ _

theorem mem_dead_iff : buffer ∈ r.dead host ↔ ∃ s, r.get? buffer = some s ∧ s.isAlive host = false := by
  rw [dead, Table.mem_keys, get?]
  simp only [Table.get?_filter, Option.filter_eq_some_iff, Bool.not_eq_true']

theorem get?_foldl_detach (buffers : List Nat) (r : Registry α β) (buffer : Nat) :
    (buffers.foldl (fun r gone => (r.detach gone).2) r).get? buffer
      = if buffer ∈ buffers then none else r.get? buffer := by
  induction buffers generalizing r with
  | nil => simp
  | cons gone rest ih =>
      rw [List.foldl_cons, ih, get?_detach]
      by_cases hgone : buffer = gone
      · simp [hgone]
      · simp [hgone]

/-- To keep the sessions that are alive is to take the others off, one by one. -/
theorem reap_eq_foldl_detach (r : Registry α β) (host : Host) :
    (r.reap host).2 = (r.dead host).foldl (fun r gone => (r.detach gone).2) r := by
  refine ext_get? fun buffer => ?_
  rw [get?_reap, get?_foldl_detach]
  by_cases hdead : buffer ∈ r.dead host
  · obtain ⟨s, hget, hgone⟩ := mem_dead_iff.1 hdead
    rw [if_pos hdead, hget, Option.filter_some, hgone]
    rfl
  · rw [if_neg hdead]
    cases hget : r.get? buffer with
    | none => rfl
    | some s =>
        have halive : s.isAlive host = true := by
          by_contra hgone
          exact hdead (mem_dead_iff.2 ⟨s, hget, Bool.eq_false_iff.2 hgone⟩)
        rw [Option.filter_some, if_pos halive]

/-- Every session is registered under the number of its buffer. -/
def Seated (r : Registry α β) : Prop := ∀ buffer s, r.get? buffer = some s → s.buffer = buffer

/-- A registry before and after the numbers `gone` were reaped. -/
structure Reaped (r : Registry α β) (host : Host) (gone : List Nat) (rest : Registry α β) : Prop where
  ascending : gone.Pairwise (· < ·)
  mem_iff : ∀ buffer, buffer ∈ gone ↔ (∃ s, r.get? buffer = some s) ∧ host.hasBuffer buffer = false
  eq_foldl_detach : rest = gone.foldl (fun r buffer => (r.detach buffer).2) r
  alive : ∀ buffer s, rest.get? buffer = some s → s.isAlive host = true
  kept : ∀ buffer, host.hasBuffer buffer = true → rest.get? buffer = r.get? buffer
  again : rest.reap host = ([], rest)

theorem Seated.reaped (h : r.Seated) (host : Host) : r.Reaped host (r.reap host).1 (r.reap host).2 := by
  have halive : ∀ buffer s, (r.reap host).2.get? buffer = some s → s.isAlive host = true := by
    intro buffer s hget
    rw [get?_reap, Option.filter_eq_some_iff] at hget
    exact hget.2
  exact
    { ascending := Table.ascending_keys _
      mem_iff := by
        intro buffer
        show buffer ∈ r.dead host ↔ _
        rw [mem_dead_iff]
        constructor
        · rintro ⟨s, hget, hgone⟩
          rw [Session.isAlive, h buffer s hget] at hgone
          exact ⟨⟨s, hget⟩, hgone⟩
        · rintro ⟨⟨s, hget⟩, hgone⟩
          rw [← h buffer s hget] at hgone
          exact ⟨s, hget, hgone⟩
      eq_foldl_detach := r.reap_eq_foldl_detach host
      alive := halive
      kept := by
        intro buffer hthere
        rw [get?_reap]
        cases hget : r.get? buffer with
        | none => rfl
        | some s =>
            rw [← h buffer s hget] at hthere
            exact if_pos hthere
      again := by
        have hnone : (r.reap host).2.dead host = [] := by
          rw [List.eq_nil_iff_forall_not_mem]
          intro buffer hdead
          obtain ⟨s, hget, hgone⟩ := mem_dead_iff.1 hdead
          rw [halive buffer s hget] at hgone
          cases hgone
        refine Prod.ext hnone ?_
        rw [reap_eq_foldl_detach, hnone]
        rfl }

end Registry

/-! ### Whatever happens -/

namespace Desk

variable [Evaluator α] [Evaluator β]

/-- What happens at a desk or, by whoever it may be, to its host. -/
inductive Happening (α β : Type) [Evaluator α] [Evaluator β] where
  | desk (e : Event α β)
  | host (e : Host.Event α β)

def happen (d : Desk α β) : Happening α β → Desk α β
  | .desk e => d.act e
  | .host e => { d with host := d.host.step e }

def after (d : Desk α β) (happenings : List (Happening α β)) : Desk α β := happenings.foldl happen d

theorem seated_act {d : Desk α β} (h : d.registry.Seated) (e : Event α β) : (d.act e).registry.Seated := by
  have hkept : Kept (fun _ => True) fun _ _ => True := ⟨fun _ => id, fun _ _ _ => ⟨trivial, trivial⟩⟩
  have hholds : d.Holds (fun _ => True) fun _ _ => True :=
    ⟨fun _ => trivial, fun buffer s hget => ⟨h buffer s hget, trivial⟩⟩
  intro buffer s hget
  exact ((hholds.act hkept e fun _ _ _ => trivial).session buffer s hget).1

theorem seated_after {d : Desk α β} (h : d.registry.Seated) (happenings : List (Happening α β)) :
    (d.after happenings).registry.Seated := by
  induction happenings generalizing d with
  | nil => exact h
  | cons happening rest ih =>
      refine ih ?_
      cases happening with
      | desk e => exact seated_act h e
      | host e => exact h

/-- **Reaping.** Whatever happened to a host and to the sessions registered for it, from an empty registry on: every
session is registered under the number of its buffer, a session that is registered next is found under that number, and
a number that is taken off has none. Reaping gives, in ascending order, the numbers under which a session is registered
and whose buffers are gone, and takes just these off. Then every session that is registered is alive, what is registered
for the buffers that there are is as it was, and reaping again does nothing. -/
theorem reaped_after (host : Host) (happenings : List (Happening α β)) :
    let d := (⟨host, {}⟩ : Desk α β).after happenings
    d.registry.Seated
      ∧ (∀ s buffer, (d.registry.attach s).2.get? buffer = if buffer = s.buffer then some s else d.registry.get? buffer)
      ∧ (∀ gone buffer, (d.registry.detach gone).2.get? buffer = if buffer = gone then none else d.registry.get? buffer)
      ∧ d.registry.Reaped d.host (d.registry.reap d.host).1 (d.registry.reap d.host).2 := by
  intro d
  have hnone : ({} : Registry α β).Seated := by
    intro buffer s hget
    cases hget
  have hseated : d.registry.Seated := seated_after hnone happenings
  exact ⟨hseated, d.registry.get?_attach, d.registry.get?_detach, hseated.reaped d.host⟩

/-- Of three sessions one quits, and the buffer of another is deleted. -/
example :
    let happenings : List (Happening Script Ex) :=
      [.host (.act (.createBuffer [])), .host (.act (.createBuffer [])),
        .desk (.attach (StandardSession.new 3 {}) (.start 3 _ _ _)),
        .desk (.attach (StandardSession.new 2 {}) (.start 2 _ _ _)),
        .desk (.attach (StandardSession.new 1 {}) (.start 1 _ _ _)),
        .desk (.serve 1 (.dispatch ["/q"])), .host (.act (.deleteBuffer 3))]
    let d := (⟨.new, {}⟩ : Desk Script Ex).after happenings
    (d.registry.reap d.host).1 = [1, 3] := by
  decide +kernel

end Desk

end Transcript
