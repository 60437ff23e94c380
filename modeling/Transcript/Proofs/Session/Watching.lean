import Transcript.Proofs.Registry
import Transcript.Proofs.Session.OneShot

/-!
Watching evaluators. A watched evaluator keeps what each of its evaluations sees, and does otherwise what the evaluator
does. So the evaluations that a request starts are those that watched evaluators keep when the request is served. With
an override that is not valid none is started, whatever is asked of the session and whatever was done before.
-/
namespace Transcript

/-- An evaluator that keeps what its evaluations saw, the last one at the end. -/
structure Watched (σ : Type) where
  state : σ
  views : List View := []

instance {σ : Type} [Evaluator σ] : Evaluator (Watched σ) where
  eval program view w :=
    let r := Evaluator.eval program view w.state
    { outcome := r.outcome, output := r.output, state := { state := r.state, views := w.views ++ [view] } }
  complete w text := Evaluator.complete w.state text
  cleanError w message := Evaluator.cleanError w.state message

variable {α β γ δ : Type}

namespace Session

/-- The session with other evaluators. -/
def withEvaluators (s : Session α β) (lua : γ) (vim : δ) : Session γ δ where
  buffer := s.buffer
  context := s.context
  language := s.language
  indent := s.indent
  redraw := s.redraw
  inspect := s.inspect
  marker := s.marker
  leader := s.leader
  history := s.history
  nextMark := s.nextMark
  lua := lua
  vim := vim

def watch (s : Session α β) : Session (Watched α) (Watched β) := s.withEvaluators { state := s.lua } { state := s.vim }

def unwatch (w : Session (Watched α) (Watched β)) : Session α β := w.withEvaluators w.lua.state w.vim.state

/-- What the evaluations see that a request starts. -/
def started [Evaluator α] [Evaluator β] (s : Session α β) (host : Host) (request : Request) : List View :=
  (s.watch.serve host request).1.lua.views ++ (s.watch.serve host request).1.vim.views

end Session

def Dispatch.unwatch (d : Dispatch (Watched α) (Watched β)) : Dispatch α β where
  output := d.output
  next := d.next
  session := d.session.unwatch
  host := d.host

namespace Session

/-! ### Watching changes nothing else -/

section Unwatch

variable (w : Session (Watched α) (Watched β)) (host : Host)

theorem unwatch_change (setting : Option Setting) : w.unwatch.change setting = (w.change setting).unwatch := by
  rcases setting with _ | (⟨o, n⟩ | n | language)
  · rfl
  · cases o <;> rfl
  · rfl
  · rfl

theorem unwatch_conclude {d : Dispatch (Watched α) (Watched β)} (hproper : d.output.Proper) (last : Nat) :
    conclude d.unwatch last = ((conclude d last).1, (conclude d last).2.1.unwatch, (conclude d last).2.2) := by
  unfold conclude
  cases hnext : d.next with
  | exit => simp only [Dispatch.unwatch, hnext]
  | proceed =>
      simp only [Dispatch.unwatch, hnext, report_eq _ _ _ hproper]
      rfl
  | hold =>
      simp only [Dispatch.unwatch, hnext, insertChunks_eq _ _ _ hproper]
      rfl

variable [Evaluator α] [Evaluator β]

theorem unwatch_evaluate (language : Language) (program : List String) :
    w.unwatch.evaluate host language program = (w.evaluate host language program).unwatch := by
  by_cases hstale : ∃ o, w.IsStale host o
  · have hstale' : ∃ o, w.unwatch.IsStale host o := hstale
    rw [evaluate_of_stale hstale, evaluate_of_stale hstale']
    rfl
  · have hnone : ¬ w.staleOverrides host ≠ [] := mt staleOverrides_ne_nil_iff.1 hstale
    have hnone' : ¬ w.unwatch.staleOverrides host ≠ [] := hnone
    unfold evaluate
    simp only [if_neg hnone, if_neg hnone']
    cases language <;> rfl

theorem unwatch_carryOut (e : Effect) : w.unwatch.carryOut host e = (w.carryOut host e).unwatch := by
  cases e with
  | refuse f => rfl
  | inform setting text =>
      rw [carryOut, unwatch_change]
      rfl
  | evaluate language program => exact w.unwatch_evaluate host language program
  | clear => rfl
  | quit => rfl

theorem unwatch_dispatch (lines : List String) :
    w.unwatch.dispatch host lines = (w.dispatch host lines).unwatch := by
  have hview : w.SameView host w.unwatch host := ⟨fun o => by cases o <;> rfl, fun _ _ => rfl, rfl, rfl, rfl, rfl⟩
  obtain ⟨e, -, -, hdispatch⟩ := w.dispatch_effect host lines
  rw [hdispatch w host (SameView.refl w host), hdispatch w.unwatch host hview]
  exact w.unwatch_carryOut host e

theorem unwatch_answer (cursor : Nat) : w.unwatch.answer host cursor = (w.answer host cursor).unwatch := by
  have hstatement : w.unwatch.statement? host cursor = w.statement? host cursor := rfl
  have hmarker : w.unwatch.marker = w.marker := rfl
  unfold answer
  rw [hstatement, hmarker]
  split
  · rfl
  next statement _ =>
    split
    · rfl
    · exact unwatch_dispatch { w with history := w.history.append statement.lines } host statement.lines

theorem unwatch_operate (op : Operation) :
    w.unwatch.operate host op
      = ((w.operate host op).1, (w.operate host op).2.1.unwatch, (w.operate host op).2.2) := by
  by_cases halive : w.isAlive host = true
  · have halive' : w.unwatch.isAlive host = true := halive
    cases op with
    | submit cursor =>
        obtain ⟨b, hget⟩ := Option.isSome_iff_exists.1 halive
        have hget' : host.buffers.get? w.unwatch.buffer = some b := hget
        rw [operate_submit hget, operate_submit hget', unwatch_answer, unwatch_conclude (w.proper_answer host cursor)]
        rfl
    | move cursor direction =>
        rw [operate_move halive, operate_move halive']
        rfl
    | breakLine line col =>
        rw [operate_breakLine halive, operate_breakLine halive']
        rfl
    | edit start stop lines => rfl
  · have hdead : ¬ w.unwatch.isAlive host = true := halive
    cases op with
    | edit start stop lines => rfl
    | _ =>
        rw [operate_of_dead halive (by simp), operate_of_dead hdead (by simp)]
        rfl

/-- A request is served with watched evaluators as it is with the evaluators. -/
theorem unwatch_serve (request : Request) :
    w.unwatch.serve host request = ((w.serve host request).1.unwatch, (w.serve host request).2) := by
  cases request with
  | operate op => exact congrArg Prod.snd (w.unwatch_operate host op)
  | dispatch lines =>
      have hdispatch := w.unwatch_dispatch host lines
      simp only [serve, hdispatch]
      rfl
  | clear => rfl

end Unwatch

theorem serve_watch [Evaluator α] [Evaluator β] (s : Session α β) (host : Host) (request : Request) :
    s.serve host request = ((s.watch.serve host request).1.unwatch, (s.watch.serve host request).2) :=
  s.watch.unwatch_serve host request

/-! ### Overrides that are not valid -/

/-- The evaluators are in the same states. -/
def SameEvaluators (s s' : Session α β) : Prop := s'.lua = s.lua ∧ s'.vim = s.vim

section Stale

variable {s : Session α β} {host : Host}

theorem sameEvaluators_change (s : Session α β) (setting : Option Setting) : s.SameEvaluators (s.change setting) := by
  rw [change_eq]
  exact ⟨rfl, rfl⟩

theorem sameEvaluators_conclude {d : Dispatch α β} (hproper : d.output.Proper) (last : Nat) :
    d.session.SameEvaluators (conclude d last).2.1 := by
  obtain ⟨nextMark, hsession⟩ := session_conclude hproper last
  rw [hsession]
  exact ⟨rfl, rfl⟩

variable [Evaluator α] [Evaluator β]

theorem sameEvaluators_dispatch (hstale : ∃ o, s.IsStale host o) (lines : List String) :
    s.SameEvaluators (s.dispatch host lines).session := by
  obtain ⟨e, -, -, hdispatch⟩ := s.exists_carryOut host lines
  rw [hdispatch]
  cases e with
  | inform setting text => exact s.sameEvaluators_change setting
  | evaluate language program =>
      rw [carryOut, evaluate_of_stale hstale]
      exact ⟨rfl, rfl⟩
  | _ => exact ⟨rfl, rfl⟩

theorem sameEvaluators_answer (hstale : ∃ o, s.IsStale host o) (cursor : Nat) :
    s.SameEvaluators (s.answer host cursor).session := by
  unfold answer
  split
  · exact ⟨rfl, rfl⟩
  next statement _ =>
    split
    · exact ⟨rfl, rfl⟩
    · -- Recording the statement makes no difference to the overrides.
      have hstale' : ∃ o, { s with history := s.history.append statement.lines }.IsStale host o := hstale
      exact sameEvaluators_dispatch hstale' statement.lines

theorem sameEvaluators_operate (hstale : ∃ o, s.IsStale host o) (op : Operation) :
    s.SameEvaluators (s.operate host op).2.1 := by
  by_cases halive : s.isAlive host = true
  · cases op with
    | submit cursor =>
        obtain ⟨b, hget⟩ := Option.isSome_iff_exists.1 halive
        rw [operate_submit hget]
        obtain ⟨hlua, hvim⟩ := sameEvaluators_answer hstale cursor
        obtain ⟨hlua', hvim'⟩ := sameEvaluators_conclude (s.proper_answer host cursor)
          (Statement.blockEnd s.marker b.lines cursor)
        exact ⟨hlua'.trans hlua, hvim'.trans hvim⟩
    | move cursor direction =>
        rw [operate_move halive]
        exact ⟨rfl, rfl⟩
    | breakLine line col =>
        rw [operate_breakLine halive]
        exact ⟨rfl, rfl⟩
    | edit start stop lines => exact ⟨rfl, rfl⟩
  · cases op with
    | edit start stop lines => exact ⟨rfl, rfl⟩
    | _ =>
        rw [operate_of_dead halive (by simp)]
        exact ⟨rfl, rfl⟩

theorem sameEvaluators_serve (hstale : ∃ o, s.IsStale host o) (request : Request) :
    s.SameEvaluators (s.serve host request).1 := by
  cases request with
  | operate op => exact sameEvaluators_operate hstale op
  | dispatch lines => exact sameEvaluators_dispatch hstale lines
  | clear => exact ⟨rfl, rfl⟩

/-- With an override that is not valid no request starts an evaluation. -/
theorem started_of_stale (hstale : ∃ o, s.IsStale host o) (request : Request) : s.started host request = [] := by
  have hwatch : ∃ o, s.watch.IsStale host o := hstale
  obtain ⟨hlua, hvim⟩ := sameEvaluators_serve hwatch request
  rw [started, hlua, hvim]
  rfl

/-- With valid overrides the evaluation of a statement is started, and sees them. -/
theorem started_of_live (hlive : ¬ ∃ o, s.IsStale host o) {lines : List String} {input : Input} {language : Language}
    {program : List String} (hinput : Input.classify s.leader s.marker lines = .ok input)
    (hevaluated : input.evaluated? s.language = some (language, program)) :
    s.started host (.dispatch lines) = [{ place := (host.enter s.context).current, inspect := s.inspect }] := by
  have hnone : ¬ s.watch.staleOverrides host ≠ [] := mt staleOverrides_ne_nil_iff.1 hlive
  have hdispatch : s.watch.dispatch host lines = s.watch.evaluate host language program :=
    dispatch_eq_evaluate host hinput hevaluated
  rw [started, serve, hdispatch, evaluate]
  simp only [if_neg hnone]
  cases language <;> rfl

end Stale

end Session

/-! ### Runs -/

namespace Desk

variable [Evaluator α] [Evaluator β]

/-- The evaluations that an event starts, each with its session and the host as they are then. -/
def startsAt (d : Desk α β) : Event α β → List (Session α β × Host)
  | .serve buffer request =>
    match d.registry.get? buffer with
    | none => []
    | some s => (s.started d.host request).map fun _ => (s, d.host)
  | _ => []

/-- The evaluations that are started in a run. -/
def starts (d : Desk α β) : List (Event α β) → List (Session α β × Host)
  | [] => []
  | e :: rest => d.startsAt e ++ (d.act e).starts rest

theorem not_isStale_of_mem_startsAt {d : Desk α β} {e : Event α β} {s : Session α β} {host : Host}
    (h : (s, host) ∈ d.startsAt e) : ¬ ∃ o, s.IsStale host o := by
  cases e with
  | serve buffer request =>
      simp only [startsAt] at h
      split at h
      · cases h
      next s' _ =>
        obtain ⟨view, hview, hstart⟩ := List.mem_map.1 h
        obtain ⟨rfl, rfl⟩ := Prod.mk.inj hstart
        intro hstale
        rw [Session.started_of_stale hstale] at hview
        cases hview
  | _ => cases h

theorem not_isStale_of_mem_starts {d : Desk α β} {events : List (Event α β)} {s : Session α β} {host : Host}
    (h : (s, host) ∈ d.starts events) : ¬ ∃ o, s.IsStale host o := by
  induction events generalizing d with
  | nil => cases h
  | cons e rest ih => exact (List.mem_append.1 h).elim not_isStale_of_mem_startsAt ih

/-- **Evaluating with valid overrides.** A statement that is to be evaluated while an override is not valid is not: the
host and the evaluators stay as they are, the overrides that are not valid are reset and the others kept, with one line
of error for each that is reset, and the session goes on. While all overrides are valid, one evaluation is started. In a
run of sessions and a host every evaluation is started with valid overrides. (Evaluations that are started are known from
watched evaluators, with which all requests are served as they are without.) -/
theorem starts_with_live_overrides (α β : Type) [Evaluator α] [Evaluator β] :
    (∀ (s : Session α β) (host : Host) (lines : List String) (input : Input) (language : Language)
        (program : List String), Input.classify s.leader s.marker lines = .ok input →
        input.evaluated? s.language = some (language, program) →
        ((∃ o, s.IsStale host o) →
          s.dispatch host lines
              = { output := ⟨[⟨.error, (Override.all.filter (s.IsStale host ·)).map Session.resetLine⟩]⟩
                  next := .proceed
                  session := { s with context := (s.dispatch host lines).session.context }
                  host := host }
            ∧ (∀ o, (s.dispatch host lines).session.override o = if s.IsStale host o then 0 else s.override o)
            ∧ s.started host (.dispatch lines) = [])
        ∧ ((¬ ∃ o, s.IsStale host o) →
          s.started host (.dispatch lines) = [{ place := (host.enter s.context).current, inspect := s.inspect }]))
      ∧ (∀ (d : Desk α β) (events : List (Event α β)) (s : Session α β) (host : Host), (s, host) ∈ d.starts events →
          ∀ o, s.override o = 0 ∨ Session.isLive host o (s.override o) = true)
      ∧ ∀ (s : Session α β) (host : Host) (request : Session.Request),
          s.serve host request = ((s.watch.serve host request).1.unwatch, (s.watch.serve host request).2) := by
  refine ⟨?_, ?_, Session.serve_watch⟩
  · intro s host lines input language program hinput hevaluated
    refine ⟨fun hstale => ?_, fun hlive => Session.started_of_live hlive hinput hevaluated⟩
    have hdispatch := Session.dispatch_eq_evaluate host hinput hevaluated
    rw [Session.evaluate_of_stale hstale] at hdispatch
    refine ⟨?_, ?_, Session.started_of_stale hstale _⟩
    · rw [hdispatch]
      rfl
    · intro o
      rw [hdispatch]
      exact s.override_withoutStale host o
  · intro d events s host hstart o
    have hlive := not_isStale_of_mem_starts hstart
    by_contra hbad
    rw [not_or, Bool.not_eq_true] at hbad
    exact hlive ⟨o, hbad⟩

/-- Buffer 2 is gone when the second of three statements is evaluated: only the first and the third start an
evaluation. -/
def bereaved : List (Event Script Ex) :=
  [.host (.createBuffer []), .attach (.start 1 { buffer := 2, window := 1 } {} {}) (.start 1 _ _ _),
    .serve 1 (.dispatch ["print(1)"]), .host (.deleteBuffer 2), .serve 1 (.dispatch ["/v echo 2"]),
    .serve 1 (.operate (.edit 0 1 ["print(3)"])), .serve 1 (.operate (.submit 1))]

theorem starts_with_live_overrides_after_deletion :
    ((StandardSession.new 1 { buffer := 2, window := 1 }).IsStale Host.new .buffer
        ∧ ((StandardSession.new 1 { buffer := 2, window := 1 }).dispatch Host.new ["/v echo 2"]).output
          = ⟨[⟨.error, ["invalid buffer context, reset to none"]⟩]⟩
        ∧ ((StandardSession.new 1 { buffer := 2, window := 1 }).dispatch Host.new ["/v echo 2"]).session.context
          = { buffer := 0, window := 1 }
        ∧ (StandardSession.new 1 { buffer := 2, window := 1 }).started Host.new (.dispatch ["/v echo 2"]) = [])
      ∧ (fresh.starts bereaved).length = 2
      ∧ ∀ s host, (s, host) ∈ fresh.starts bereaved →
          ∀ o, s.override o = 0 ∨ Session.isLive host o (s.override o) = true := by
  obtain ⟨hdispatch, hrun, -⟩ := starts_with_live_overrides Script Ex
  have hstale : (StandardSession.new 1 { buffer := 2, window := 1 }).IsStale Host.new .buffer := by decide
  have hinput : Input.classify '/' '\\' ["/v echo 2"] = .ok (.command .vim (some (.source ["echo 2"]))) := by
    decide +kernel
  obtain ⟨hreset, -⟩ := hdispatch (StandardSession.new 1 { buffer := 2, window := 1 }) Host.new _ _ _ _ hinput rfl
  obtain ⟨heq, hoverride, hnone⟩ := hreset ⟨_, hstale⟩
  refine ⟨⟨hstale, ?_, ?_, hnone⟩, by decide +kernel, fun s host => hrun fresh bereaved s host⟩
  · rw [heq]
    decide
  · have hbuffer := hoverride .buffer
    have hwindow := hoverride .window
    rw [if_pos hstale] at hbuffer
    rw [if_neg (by decide)] at hwindow
    exact congrArg₂ Place.mk hbuffer hwindow

end Desk

end Transcript
