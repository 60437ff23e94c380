import Transcript.Ex.Run
import Transcript.Proofs.Token.Pieces

/-!
Commands on one line. A line is cut at its bars outside quotes, and the quotes are told apart by their kind alone; the
argument of a command is made of tokens, where a backslash guards a quote and a comment has none. The two agree on where
texts begin and end, but for stray quotes: a guarded one inside a text of its kind, and one in a comment. Where these
leave no quote open, the commands of a line are executed as they are one by one, up to the first error.
-/
namespace Transcript.Ex

open Token

/-! ### Quotes told apart by their kind -/

/-- The quote that is open behind `c`. -/
def quoteStep (quote : Option Char) (c : Char) : Option Char :=
  match quote with
  | some q => if c = q then none else some q
  | none => if isQuote c then some c else none

/-- The quote that is open behind a text. -/
def quoteBehind (quote : Option Char) (cs : List Char) : Option Char := cs.foldl quoteStep quote

/-- Every bar of a text stands between quotes. -/
def CoversBars (quote : Option Char) (cs : List Char) : Prop :=
  ∀ i < cs.length, cs[i]? = some '|' → quoteBehind quote (cs.take i) ≠ none

/-- A text closes the quotes that it opens, and its bars stand between them. -/
def ClosesQuotes (cs : List Char) : Prop := CoversBars none cs ∧ quoteBehind none cs = none

instance (quote : Option Char) (cs : List Char) : Decidable (CoversBars quote cs) :=
  inferInstanceAs (Decidable (∀ i < cs.length, _))

instance (cs : List Char) : Decidable (ClosesQuotes cs) := inferInstanceAs (Decidable (_ ∧ _))

theorem quoteBehind_append (quote : Option Char) (cs cs' : List Char) :
    quoteBehind quote (cs ++ cs') = quoteBehind (quoteBehind quote cs) cs' := List.foldl_append

theorem coversBars_cons {quote : Option Char} {c : Char} {cs : List Char} :
    CoversBars quote (c :: cs) ↔ (c = '|' → quote ≠ none) ∧ CoversBars (quoteStep quote c) cs := by
  constructor
  · intro h
    refine ⟨fun hc => h 0 (Nat.zero_lt_succ _) (congrArg some hc), fun i hi hbar => ?_⟩
    exact h (i + 1) (Nat.succ_lt_succ hi) hbar
  · rintro ⟨hhead, htail⟩ i hi hbar
    cases i with
    | zero => exact hhead (Option.some.inj hbar)
    | succ i => exact htail i (Nat.lt_of_succ_lt_succ hi) hbar

theorem coversBars_append {quote : Option Char} {cs cs' : List Char} :
    CoversBars quote (cs ++ cs') ↔ CoversBars quote cs ∧ CoversBars (quoteBehind quote cs) cs' := by
  induction cs generalizing quote with
  | nil =>
      refine ⟨fun h => ⟨?_, h⟩, And.right⟩
      intro i hi
      exact absurd hi (Nat.not_lt_zero i)
  | cons c cs ih =>
      rw [List.cons_append, coversBars_cons, coversBars_cons, ih, and_assoc]
      rfl

theorem closesQuotes_nil : ClosesQuotes [] := by decide

theorem ClosesQuotes.append {cs cs' : List Char} (h : ClosesQuotes cs) (h' : ClosesQuotes cs') :
    ClosesQuotes (cs ++ cs') := by
  rw [ClosesQuotes, coversBars_append, quoteBehind_append, h.2]
  exact ⟨⟨h.1, h'.1⟩, h'.2⟩

theorem closesQuotes_flatMap {ι : Type} {source : ι → List Char} {xs : List ι}
    (h : ∀ x ∈ xs, ClosesQuotes (source x)) : ClosesQuotes (xs.flatMap source) := by
  induction xs with
  | nil => exact closesQuotes_nil
  | cons x xs ih =>
      rw [List.flatMap_cons]
      exact (h x List.mem_cons_self).append (ih fun y hy => h y (List.mem_cons_of_mem x hy))

/-- Without quotes and bars there is nothing to close. -/
theorem closesQuotes_of_plain {cs : List Char} (hquotes : ∀ x ∈ cs, ¬ isQuote x) (hbars : '|' ∉ cs) :
    ClosesQuotes cs := by
  induction cs with
  | nil => exact closesQuotes_nil
  | cons c cs ih =>
      have hstep : quoteStep none c = none := if_neg (hquotes c List.mem_cons_self)
      have hc : c ≠ '|' := fun hc => hbars (hc ▸ List.mem_cons_self)
      have hrest := ih (fun x hx => hquotes x (List.mem_cons_of_mem c hx)) fun hbar => hbars (List.mem_cons_of_mem c hbar)
      rw [ClosesQuotes, coversBars_cons, quoteBehind, List.foldl_cons, hstep]
      exact ⟨⟨fun hbar => absurd hbar hc, hrest.1⟩, hrest.2⟩

/-- A text closes its quotes if no other quote of its kind is in it. -/
theorem closesQuotes_of_quoted {quote : Char} (hquote : isQuote quote) {body : List Char} (hbody : quote ∉ body) :
    ClosesQuotes (quote :: (body ++ [quote])) := by
  have hinside : ∀ body : List Char, quote ∉ body →
      CoversBars (some quote) body ∧ quoteBehind (some quote) body = some quote := by
    intro body hbody
    induction body with
    | nil => exact ⟨fun i hi => absurd hi (Nat.not_lt_zero i), rfl⟩
    | cons c body ih =>
        have hc : c ≠ quote := fun hc => hbody (hc ▸ List.mem_cons_self)
        have hstep : quoteStep (some quote) c = some quote := if_neg hc
        have hrest := ih fun hmem => hbody (List.mem_cons_of_mem c hmem)
        rw [coversBars_cons, quoteBehind, List.foldl_cons, hstep]
        exact ⟨⟨fun _ => Option.some_ne_none quote, hrest.1⟩, hrest.2⟩
  have hopen : quoteStep none quote = some quote := if_pos hquote
  have hbar : quote ≠ '|' := by
    rintro rfl
    revert hquote
    decide
  obtain ⟨hcovers, hbehind⟩ := hinside body hbody
  have hclose : quoteBehind (some quote) (body ++ [quote]) = none := by
    rw [quoteBehind_append, hbehind]
    exact if_pos rfl
  refine ⟨coversBars_cons.2 ⟨fun h => absurd h hbar, ?_⟩, ?_⟩
  · rw [hopen, coversBars_append, hbehind]
    exact ⟨hcovers, coversBars_cons.2 ⟨fun h => absurd h hbar, fun i hi => absurd hi (Nat.not_lt_zero i)⟩⟩
  · rw [quoteBehind, List.foldl_cons, hopen]
    exact hclose

/-! ### Cutting a line -/

theorem splitBars_ne_nil (quote : Option Char) (cs : List Char) : splitBars quote cs ≠ [] := by
  fun_cases splitBars quote cs with
  | case1 => exact List.cons_ne_nil _ _
  | case2 c cs keep q =>
      simp only [keep]
      split <;> exact List.cons_ne_nil _ _
  | case3 c cs keep hquote =>
      simp only [keep]
      split <;> exact List.cons_ne_nil _ _
  | case4 => exact List.cons_ne_nil _ _
  | case5 c cs keep hquote hbar =>
      simp only [keep]
      split <;> exact List.cons_ne_nil _ _

/-- A character that is no bar outside quotes stays with what is behind it. -/
theorem splitBars_cons {quote : Option Char} {c : Char} (h : c = '|' → quote ≠ none) (cs : List Char) :
    splitBars quote (c :: cs) = (splitBars (quoteStep quote c) cs).modifyHead (c :: ·) := by
  cases hcs : splitBars (quoteStep quote c) cs with
  | nil => exact absurd hcs (splitBars_ne_nil _ cs)
  | cons p ps =>
      cases quote with
      | some q =>
          rw [quoteStep] at hcs
          rw [splitBars]
          simp only [hcs, List.modifyHead_cons]
      | none =>
          have hc : c ≠ '|' := fun hc => h hc rfl
          rw [splitBars]
          by_cases hquote : isQuote c
          · rw [quoteStep, if_pos hquote] at hcs
            simp only [hcs, List.modifyHead_cons]
            exact if_pos hquote
          · rw [quoteStep, if_neg hquote] at hcs
            simp only [hcs, List.modifyHead_cons]
            exact (if_neg hquote).trans (if_neg hc)

/-- A text whose bars stand between quotes stays with what is behind it. -/
theorem splitBars_append {quote : Option Char} {cs : List Char} (h : CoversBars quote cs) (rest : List Char) :
    splitBars quote (cs ++ rest) = (splitBars (quoteBehind quote cs) rest).modifyHead (cs ++ ·) := by
  induction cs generalizing quote with
  | nil =>
      show splitBars quote rest = (splitBars quote rest).modifyHead id
      rw [List.modifyHead_id, id]
  | cons c cs ih =>
      obtain ⟨hhead, htail⟩ := coversBars_cons.1 h
      rw [List.cons_append, splitBars_cons hhead, ih htail, List.modifyHead_modifyHead]
      rfl

/-- A line is cut at the bars between its commands, and nowhere else. -/
theorem splitBars_intercalate {commands : List (List Char)} (hne : commands ≠ [])
    (h : ∀ c ∈ commands, ClosesQuotes c) : splitBars none (['|'].intercalate commands) = commands := by
  induction commands with
  | nil => exact absurd rfl hne
  | cons c commands ih =>
      obtain ⟨hcovers, hcloses⟩ := h c List.mem_cons_self
      cases commands with
      | nil =>
          have hline : splitBars none (c ++ []) = [c ++ []] := by
            rw [splitBars_append hcovers, hcloses]
            rfl
          rw [List.append_nil] at hline
          rw [List.intercalate_singleton, hline]
      | cons c' commands =>
          have hrest := ih (List.cons_ne_nil _ _) fun x hx => h x (List.mem_cons_of_mem c hx)
          have hbar : splitBars none ('|' :: ['|'].intercalate (c' :: commands)) = [] :: c' :: commands := by
            rw [splitBars, hrest]
            rfl
          rw [List.intercalate_cons_cons, List.append_assoc, splitBars_append hcovers, hcloses, List.singleton_append,
            hbar]
          simp

/-! ### Commands -/

/-- The argument of a command. -/
def argument (cs : List Char) : List Char := (splitVerb (command cs)).2

/-- What may stand before a command has no quotes and no bars. -/
theorem closesQuotes_of_leading {cs : List Char} (h : ∀ c ∈ cs, isLeading c = true) : ClosesQuotes cs := by
  refine closesQuotes_of_plain (fun c hc => ?_) fun hbar => absurd (h _ hbar) (by decide)
  rintro (rfl | rfl) <;> exact absurd (h _ hc) (by decide)

/-- Before its argument a command has no quotes and no bars. -/
theorem closesQuotes_of_argument {cs : List Char} (h : ClosesQuotes (argument cs)) : ClosesQuotes cs := by
  have hlead : ClosesQuotes (cs.takeWhile isLeading) :=
    closesQuotes_of_leading (List.all_eq_true.1 List.all_takeWhile)
  have hword : ClosesQuotes ((command cs).takeWhile Char.isAlpha) := by
    have hletter : ∀ x ∈ (command cs).takeWhile Char.isAlpha, x.isAlpha = true :=
      List.all_eq_true.1 List.all_takeWhile
    refine closesQuotes_of_plain (fun x hx => ?_) fun hbar => absurd (hletter _ hbar) (by decide)
    rintro (rfl | rfl) <;> exact absurd (hletter _ hx) (by decide)
  have hparts : cs.takeWhile isLeading ++ ((command cs).takeWhile Char.isAlpha ++ argument cs) = cs := by
    rw [argument, splitVerb, List.takeWhile_append_dropWhile, command, List.takeWhile_append_dropWhile]
  rw [← hparts]
  exact hlead.append (hword.append h)

/-- A piece whose bars stand in a text closes its quotes, unless one of them strays. -/
theorem closesQuotes_of_piece {cs : List Char} {p : Piece} (hp : p ∈ pieces cs)
    (hbars : '|' ∈ p.source → p.isText = true) (hstray : p.hasStrayQuote = false) : ClosesQuotes p.source := by
  unfold Piece.isText at hbars
  unfold Piece.hasStrayQuote at hstray
  cases hl : p.lexeme? with
  | none =>
      simp only [hl, Bool.false_eq_true, imp_false] at hbars hstray
      refine closesQuotes_of_plain (fun x hx hquote => ?_) hbars
      exact absurd (List.any_eq_false.1 hstray x hx) (by simpa using hquote)
  | some l =>
      have hencloses := quotesEnclose_of_mem_pieces hp hl
      cases l with
      | text s =>
          obtain ⟨quote, body, hquote, hsource⟩ := hencloses
          simp only [hl, hsource, List.head?_cons, Option.any_some, List.tail_cons, List.dropLast_concat,
            List.contains_eq_mem, decide_eq_false_iff_not] at hstray
          rw [hsource]
          exact closesQuotes_of_quoted hquote hstray
      | _ =>
          simp only [hl, Bool.false_eq_true, imp_false] at hbars
          exact closesQuotes_of_plain hencloses hbars

/-- Executes commands one by one, up to the first error. -/
def inTurn (place : Place) : List (List Char) → Running → Option Error × Running
  | [], r => (none, r)
  | cs :: rest, r =>
    match (execute place cs).run r with
    | .ok _ r' => inTurn place rest r'
    | .error e r' => (some e, r')

/-- What single commands, executed one by one, make of the state. -/
def evaluateInTurn (commands : List (List Char)) (view : View) (s : Ex) : Evaluation Ex :=
  let (error, r) := inTurn view.place commands ⟨s.vars, .empty⟩
  { outcome := (error.map fun e => .failed e.message).getD .done, output := r.sink, state := ⟨r.vars⟩ }

theorem executeAll_eq_inTurn (place : Place) (commands : List (List Char)) (r : Running) :
    (executeAll place commands).run r = match inTurn place commands r with
      | (none, r') => .ok ⟨⟩ r'
      | (some e, r') => .error e r' := by
  induction commands generalizing r with
  | nil => rfl
  | cons cs rest ih =>
      rw [executeAll, inTurn]
      simp only [EStateM.run, bind, EStateM.bind] at ih ⊢
      cases execute place cs r with
      | ok a r' => exact ih r'
      | error e r' => rfl

/-- **A line of commands is its commands, one by one,** as long as their bars stand in their texts, and a text or a
comment with a stray quote still closes the quotes that it opens when they are told apart by their kind alone. -/
theorem evaluate_joined {commands : List (List Char)} {program : List String}
    (hjoined : (String.join program).toList = ['|'].intercalate commands)
    (hbars : ∀ c ∈ commands, ∀ p ∈ pieces (argument c), '|' ∈ p.source → p.isText = true)
    (hstray : ∀ c ∈ commands, ∀ p ∈ pieces (argument c), p.hasStrayQuote = true → ClosesQuotes p.source)
    (view : View) (s : Ex) : evaluate program view s = evaluateInTurn commands view s := by
  have hcloses : ∀ c ∈ commands, ClosesQuotes c := by
    intro c hc
    apply closesQuotes_of_argument
    rw [← flatMap_source_pieces (argument c)]
    refine closesQuotes_flatMap fun p hp => ?_
    by_cases hquote : p.hasStrayQuote = true
    · exact hstray c hc p hp hquote
    · exact closesQuotes_of_piece hp (hbars c hc p hp) (by simpa using hquote)
  have hrun : (executeAll view.place (splitBars none (String.join program).toList)).run ⟨s.vars, .empty⟩
      = (executeAll view.place commands).run ⟨s.vars, .empty⟩ := by
    rw [hjoined]
    by_cases hne : commands = []
    · -- No commands at all are one empty command, which does nothing.
      subst hne
      rfl
    · rw [splitBars_intercalate hne hcloses]
  rw [evaluate, hrun, executeAll_eq_inTurn, evaluateInTurn]
  rcases inTurn view.place commands ⟨s.vars, .empty⟩ with ⟨_ | e, r⟩ <;> rfl

/-- Four commands: two with bars in their texts, one of them between guarded quotes, one that fails, and one behind it. -/
def barredCommands : List (List Char) :=
  ["let x = 'a|b'".toList, " :echo \"\\\"say\\\"|\" x".toList, "call nope()".toList, "echo 'never'".toList]

/-- The line of the four commands shows one line and fails at the third. -/
theorem evaluate_joined_up_to_error :
    evaluate ["let x = 'a|b'| :echo \"\\\"say\\\"|\" x|call ", "nope()|echo 'never'"] ⟨{}, false⟩ {}
        = evaluateInTurn barredCommands ⟨{}, false⟩ {}
      ∧ (evaluateInTurn barredCommands ⟨{}, false⟩ {}).output = .of .output "\"say\"| a|b"
      ∧ (evaluateInTurn barredCommands ⟨{}, false⟩ {}).outcome = .failed "Vim(call):E117: Unknown function: nope" :=
  ⟨evaluate_joined (by decide +kernel) (by decide +kernel) (by decide +kernel) _ _, by decide +kernel,
    by decide +kernel⟩

/-- A guarded quote that does not close: the bar behind it cuts the text. -/
example : evaluate ["echo 'a\\'|b'"] ⟨{}, false⟩ {} ≠ evaluateInTurn ["echo 'a\\'|b'".toList] ⟨{}, false⟩ {} := by
  intro h
  have houtcome := congrArg Evaluation.outcome h
  revert houtcome
  decide +kernel

end Transcript.Ex
