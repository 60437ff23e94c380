import Transcript.Toml.Document

/-!
Written numbers are read back. The digits of a number stand at the end of a line. They are no moment and no number
with a fraction, since only a digit or the line end follows each of them, and the zero is the only number that begins
with a zero.
-/
namespace Transcript.Toml

/-- Reading a value gives `v` and stops at the line end behind the text. Spaces in front are skipped. -/
def ReadsAs (text : List Char) (v : Toml) : Prop :=
  ∀ levels rest, takeValue? levels (skipSpaces (text ++ '\n' :: rest)) = some (v, '\n' :: rest)

theorem skipSpaces_cons {c : Char} (hc : isSpace c = false) (cs : List Char) : skipSpaces (c :: cs) = c :: cs := by
  rw [skipSpaces, List.dropWhile_cons_of_neg (by simp [hc])]

/-! ### Digits -/

theorem hexDigit?_digitChar : ∀ d < 16, hexDigit? d.digitChar = some d := by decide

/-- The digits of a number write it, whatever gives the digits their values. -/
theorem foldl_toDigits {base : Nat} (hbase : 1 < base) {value : Char → Nat}
    (hvalue : ∀ d < base, value d.digitChar = d) (n : Nat) :
    (Nat.toDigits base n).foldl (fun m c => base * m + value c) 0 = n := by
  induction n using Nat.strongRecOn with
  | ind n ih =>
      rw [Nat.toDigits_eq_if hbase]
      split
      · next hlt => simp [hvalue n hlt]
      · next hge =>
          have hless : n / base < n := Nat.div_lt_self (by omega) hbase
          have hlast : value (n % base).digitChar = n % base := hvalue _ (Nat.mod_lt n (by omega))
          rw [List.foldl_append, ih _ hless, List.foldl_cons, List.foldl_nil, hlast, Nat.div_add_mod]

theorem numberIn_writeNumber (n : Nat) : numberIn 10 (writeNumber n) = n := by
  refine foldl_toDigits (by decide) (fun d hd => ?_) n
  rw [hexDigit?_digitChar d (by omega), Option.getD_some]

@[simp] theorem writeNumber_ne_nil (n : Nat) : writeNumber n ≠ [] := Nat.toDigits_ne_nil

theorem isDigit_of_mem_writeNumber {n : Nat} {c : Char} (h : c ∈ writeNumber n) : c.isDigit = true :=
  Nat.isDigit_of_mem_toDigits (by decide) (by decide) h

/-- A number begins with a digit, and only the zero begins with a zero. -/
theorem writeNumber_eq_cons (n : Nat) :
    ∃ c cs, writeNumber n = c :: cs ∧ c.isDigit = true ∧ (0 < n → c ≠ '0') := by
  induction n using Nat.strongRecOn with
  | ind n ih =>
      rw [writeNumber, Nat.toDigits_eq_if (by decide)]
      split
      · next hlt =>
          have hdigit : n.digitChar.isDigit = true := by simp [Nat.isDigit_digitChar, hlt]
          exact ⟨n.digitChar, [], rfl, hdigit, fun hn => by rw [Ne, Nat.digitChar_eq_zero]; omega⟩
      · next hge =>
          obtain ⟨c, cs, hcs, hdigit, hc⟩ := ih (n / 10) (by omega)
          rw [writeNumber] at hcs
          exact ⟨c, cs ++ [(n % 10).digitChar], by rw [hcs, List.cons_append], hdigit, fun _ => hc (by omega)⟩

/-! ### Lines that begin with digits -/

section

variable {ds : List Char} (hds : ∀ c ∈ ds, c.isDigit = true) (rest : List Char)

include hds

theorem takeDigits_append : takeDigits Char.isDigit (ds ++ '\n' :: rest) = (ds, '\n' :: rest) := by
  induction ds with
  | nil => cases rest <;> rfl
  | cons c ds ih =>
      obtain ⟨hc, hds⟩ := List.forall_mem_cons.1 hds
      cases ds with
      | nil =>
          have hstop := ih hds
          simp only [List.nil_append] at hstop
          simp [takeDigits, hc, hstop]
      | cons d ds =>
          have hd : d ≠ '_' := ne_of_apply_ne Char.isDigit (by rw [hds d List.mem_cons_self]; decide)
          have htail := ih hds
          simp only [List.cons_append] at htail
          simp [takeDigits, hc, hd, htail]

/-- What is left behind some of the digits begins with a digit or the line end. -/
theorem takeChar?_of_takeFixed? {k value : Nat} {left : List Char}
    (h : takeFixed? k (ds ++ '\n' :: rest) = some (value, left)) {c : Char} (hc : c.isDigit = false)
    (hline : c ≠ '\n') : takeChar? c left = none := by
  rw [takeFixed?] at h
  split at h
  · next hall =>
      obtain ⟨rfl, rfl⟩ := Prod.mk.inj (Option.some.inj h)
      have hk : k ≤ ds.length := by
        refine Nat.le_of_not_lt fun hlt => ?_
        have hend : '\n' ∈ (ds ++ '\n' :: rest).take k := by
          rw [List.take_append, List.take_cons (by omega)]
          simp
        exact absurd (List.all_eq_true.1 hall.2 '\n' hend) (by decide)
      rw [List.drop_append_of_le_length hk]
      cases hleft : ds.drop k with
      | nil => simp [takeChar?, hline]
      | cons d es =>
          have hd : d.isDigit = true := hds d (List.mem_of_mem_drop (by rw [hleft]; exact List.mem_cons_self))
          have hne : c ≠ d := ne_of_apply_ne Char.isDigit (by simp [hc, hd])
          simp [takeChar?, hne]
  · cases h

theorem takeMoment?_eq_none : takeMoment? (ds ++ '\n' :: rest) = none := by
  have hdate : skipDate? (ds ++ '\n' :: rest) = none := by
    cases hyear : takeFixed? 4 (ds ++ '\n' :: rest) with
    | none => simp [skipDate?, hyear]
    | some taken =>
        obtain ⟨year, left⟩ := taken
        simp [skipDate?, hyear, takeChar?_of_takeFixed? hds rest hyear (c := '-') (by decide) (by decide)]
  have htime : skipTime? (ds ++ '\n' :: rest) = none := by
    cases hhour : takeFixed? 2 (ds ++ '\n' :: rest) with
    | none => simp [skipTime?, skipClock?, hhour]
    | some taken =>
        obtain ⟨hour, left⟩ := taken
        simp [skipTime?, skipClock?, hhour,
          takeChar?_of_takeFixed? hds rest hhour (c := ':') (by decide) (by decide)]
  simp [takeMoment?, skipMoment?, hdate, htime]

end

/-! ### Numbers -/

theorem takeSign_of_isDigit {c : Char} (hc : c.isDigit = true) (cs : List Char) :
    takeSign (c :: cs) = ([], c :: cs) := by
  unfold takeSign
  split
  case h_3 => rfl
  all_goals
    next heq =>
      cases heq
      cases hc

theorem takeSign_writeNumber (n : Nat) (rest : List Char) :
    takeSign (writeNumber n ++ rest) = ([], writeNumber n ++ rest) := by
  obtain ⟨c, cs, hcs, hdigit, -⟩ := writeNumber_eq_cons n
  rw [hcs]
  exact takeSign_of_isDigit hdigit _

theorem takeWhole_writeNumber (n : Nat) (rest : List Char) :
    takeWhole (writeNumber n ++ '\n' :: rest) = (writeNumber n, '\n' :: rest) := by
  rcases Nat.eq_zero_or_pos n with rfl | hn
  · rfl
  · have hdigits := takeDigits_append (fun c => isDigit_of_mem_writeNumber (n := n)) rest
    obtain ⟨c, cs, hcs, -, hc⟩ := writeNumber_eq_cons n
    rw [← hdigits, hcs, List.cons_append, takeWhole]
    rintro cs' heq
    exact hc hn (List.cons.inj heq).1

theorem takeFloat?_writeNumber (n : Nat) (rest : List Char) :
    takeFloat? (writeNumber n ++ '\n' :: rest) = none := by
  simp [takeFloat?, takeSign_writeNumber, takeWhole_writeNumber, takeFraction, takePower]

theorem takeInteger?_writeNumber {n : Nat} (hn : (n : Int) < Word.bound) (rest : List Char) :
    takeInteger? (writeNumber n ++ '\n' :: rest) = some (.integer n, '\n' :: rest) := by
  have hword : integer? n = some (.integer n) := by
    have hlow : -Word.bound ≤ (n : Int) := by simp only [Word.bound] at *; omega
    simp [integer?, Word.ofInt?, hlow, hn]
  -- No number in another base begins like this one.
  have hten : ∀ b cs, writeNumber n ++ '\n' :: rest = '0' :: b :: cs → b = '\n' := by
    intro b cs heq
    rcases Nat.eq_zero_or_pos n with rfl | hpos
    · exact (List.cons.inj (List.cons.inj heq).2).1.symm
    · obtain ⟨c, ds, hcs, -, hc⟩ := writeNumber_eq_cons n
      rw [hcs] at heq
      exact absurd (List.cons.inj heq).1 (hc hpos)
  rw [takeInteger?]
  · simp [takeSign_writeNumber, takeWhole_writeNumber, numberIn_writeNumber, hword]
  all_goals
    intro cs heq
    exact absurd (hten _ _ heq) (by decide)

theorem takeValue?_of_isDigit {c : Char} (hc : c.isDigit = true) (levels : Nat) (cs : List Char) :
    takeValue? levels (skipSpaces (c :: cs)) = takeNumber? (c :: cs) := by
  have hspace : c ≠ ' ' := ne_of_apply_ne Char.isDigit (by rw [hc]; decide)
  have htab : c ≠ '\t' := ne_of_apply_ne Char.isDigit (by rw [hc]; decide)
  rw [skipSpaces_cons (by simp [isSpace, hspace, htab])]
  unfold takeValue?
  split
  case h_7 => rfl
  all_goals
    next heq =>
      cases heq
      cases hc

theorem readsAs_writeNumber {n : Nat} (hn : (n : Int) < Word.bound) : ReadsAs (writeNumber n) (.integer n) := by
  intro levels rest
  have hvalue : takeValue? levels (skipSpaces (writeNumber n ++ '\n' :: rest)) =
      takeNumber? (writeNumber n ++ '\n' :: rest) := by
    obtain ⟨c, cs, hcs, hdigit, -⟩ := writeNumber_eq_cons n
    rw [hcs]
    exact takeValue?_of_isDigit hdigit levels _
  have hmoment := takeMoment?_eq_none (fun c => isDigit_of_mem_writeNumber (n := n)) rest
  rw [hvalue, takeNumber?, hmoment, takeFloat?_writeNumber, takeInteger?_writeNumber hn]
  rfl

theorem readsAs_writeBoolean (b : Bool) : ReadsAs (writeBoolean b) (.boolean b) := by
  intro levels rest
  cases b <;> simp [writeBoolean, skipSpaces, isSpace, takeValue?]

end Transcript.Toml
