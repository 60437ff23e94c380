import Transcript.Proofs.Toml.Number

/-!
Written text is read back, whatever its characters. A character between double quotes is written as itself or as an
escape, and reading takes it off the front of any text. A single character that stands between single quotes, or over
lines, is read back too.
-/
namespace Transcript.Toml

/-! ### Code points -/

/-- Digits in front of other text give the number that they write. -/
theorem takePoint?_append {ds : List Char} (hds : ∀ c ∈ ds, (hexDigit? c).isSome) (value : Nat) (rest : List Char) :
    takePoint? ds.length value (ds ++ rest) =
      (charOfPoint? (ds.foldl (fun n c => 16 * n + (hexDigit? c).getD 0) value)).map fun c => (c, rest) := by
  induction ds generalizing value with
  | nil => rfl
  | cons c ds ih =>
      obtain ⟨hc, hds⟩ := List.forall_mem_cons.1 hds
      obtain ⟨d, hd⟩ := Option.isSome_iff_exists.1 hc
      simp [takePoint?, hd, ih hds]

theorem hexDigit?_toUpper_digitChar : ∀ d < 16, hexDigit? d.digitChar.toUpper = some d := by decide

theorem hexDigit?_zero : hexDigit? '0' = some 0 := by decide

/-- Every digit of a number is the capital of one. -/
theorem hexDigit?_of_mem_toDigits {n : Nat} {c : Char} (h : c ∈ Nat.toDigits 16 n) : (hexDigit? c.toUpper).isSome := by
  induction n using Nat.strongRecOn with
  | ind n ih =>
      rw [Nat.toDigits_eq_if (by decide)] at h
      split at h
      · next hlt =>
          rw [List.mem_singleton.1 h, hexDigit?_toUpper_digitChar n hlt]
          rfl
      · next hge =>
          rcases List.mem_append.1 h with hfirst | hlast
          · exact ih (n / 16) (by omega) hfirst
          · rw [List.mem_singleton.1 hlast, hexDigit?_toUpper_digitChar _ (Nat.mod_lt n (by decide))]
            rfl

theorem hexDigit?_of_mem_fourDigits {n : Nat} {c : Char} (h : c ∈ fourDigits n) : (hexDigit? c).isSome := by
  rcases List.mem_append.1 h with hzero | hdigit
  · rw [List.eq_of_mem_replicate hzero, hexDigit?_zero]
    rfl
  · obtain ⟨d, hd, rfl⟩ := List.mem_map.1 hdigit
    exact hexDigit?_of_mem_toDigits hd

theorem length_fourDigits {n : Nat} (hn : n < 65536) : (fourDigits n).length = 4 := by
  have hlen : (Nat.toDigits 16 n).length ≤ 4 := (Nat.length_toDigits_le_iff (by decide) (by decide)).2 hn
  simp only [fourDigits, List.length_append, List.length_replicate, List.length_map]
  omega

/-- The zeros in front add nothing. -/
theorem numberIn_fourDigits (n : Nat) : numberIn 16 (fourDigits n) = n := by
  have hzeros : ∀ k, (List.replicate k '0').foldl (fun n c => 16 * n + (hexDigit? c).getD 0) 0 = 0 := by
    intro k
    induction k with
    | zero => rfl
    | succ k ih => simpa [List.replicate_succ, hexDigit?_zero] using ih
  rw [numberIn, fourDigits, List.foldl_append, hzeros, List.foldl_map]
  refine foldl_toDigits (by decide) (fun d hd => ?_) n
  rw [hexDigit?_toUpper_digitChar d hd, Option.getD_some]

theorem takePoint?_fourDigits {c : Char} (hc : c.toNat < 128) (rest : List Char) :
    takePoint? 4 0 (fourDigits c.toNat ++ rest) = some (c, rest) := by
  have htake := takePoint?_append (fun d => hexDigit?_of_mem_fourDigits (n := c.toNat) (c := d)) 0 rest
  have hpoint : charOfPoint? c.toNat = some c := by
    rw [charOfPoint?, if_pos (Or.inl (by omega)), Char.ofNat_toNat]
  rw [length_fourDigits (by omega)] at htake
  rw [htake, ← numberIn, numberIn_fourDigits, hpoint]
  rfl

/-! ### Text between double quotes -/

/-- A character is written as itself if nothing forbids that, else as an escape. -/
theorem escapeBasic_cases (c : Char) :
    (escapeBasic c = [c] ∧ c ≠ '"' ∧ c ≠ '\\' ∧ isPlain c = true) ∨
      ∃ e, escapeBasic c = '\\' :: e ∧ ∀ rest, takeEscape? (e ++ rest) = some (c, rest) := by
  unfold escapeBasic
  split
  · next h => exact .inr ⟨['b'], rfl, fun rest => by rw [h]; rfl⟩
  split
  · next h => exact .inr ⟨['t'], rfl, fun rest => by rw [h]; rfl⟩
  split
  · next h => exact .inr ⟨['n'], rfl, fun rest => by rw [h]; rfl⟩
  split
  · next h => exact .inr ⟨['f'], rfl, fun rest => by rw [h]; rfl⟩
  split
  · next h => exact .inr ⟨['r'], rfl, fun rest => by rw [h]; rfl⟩
  split
  · next h => exact .inr ⟨['"'], rfl, fun rest => by rw [h]; rfl⟩
  split
  · next h => exact .inr ⟨['\\'], rfl, fun rest => by rw [h]; rfl⟩
  split
  · next hcontrol => exact .inr ⟨'u' :: fourDigits c.toNat, rfl, takePoint?_fourDigits (by omega)⟩
  · next hquote hslash hcontrol =>
      have hplain : isPlain c = true := by
        simp only [isPlain, Bool.or_eq_true, Bool.and_eq_true, decide_eq_true_eq, bne_iff_ne]
        omega
      exact .inl ⟨rfl, hquote, hslash, hplain⟩

/-- Reading takes a written character off the front. -/
theorem takeLineText?_escapeBasic (c : Char) (rounds : Nat) (cs : List Char) :
    takeLineText? '"' (rounds + 1) (escapeBasic c ++ cs) =
      (takeLineText? '"' rounds cs).map fun p => (c :: p.1, p.2) := by
  rcases escapeBasic_cases c with ⟨hself, hquote, hslash, hplain⟩ | ⟨e, hescape, htake⟩
  · rw [hself]
    cases htail : takeLineText? '"' rounds cs <;> simp [takeLineText?, hquote, hslash, hplain, htail]
  · rw [hescape]
    cases htail : takeLineText? '"' rounds cs <;> simp [takeLineText?, htake, htail]

theorem takeLineText?_written (cs : List Char) {rounds : Nat} (hrounds : cs.length < rounds) (rest : List Char) :
    takeLineText? '"' rounds (cs.flatMap escapeBasic ++ '"' :: rest) = some (cs, rest) := by
  induction cs generalizing rounds with
  | nil =>
      obtain ⟨rounds, rfl⟩ := Nat.exists_eq_add_one_of_ne_zero (Nat.ne_zero_of_lt hrounds)
      simp [takeLineText?]
  | cons c cs ih =>
      obtain ⟨rounds, rfl⟩ := Nat.exists_eq_add_one_of_ne_zero (Nat.ne_zero_of_lt hrounds)
      have htail : takeLineText? '"' rounds (cs.flatMap escapeBasic ++ '"' :: rest) = some (cs, rest) :=
        ih (by simpa using hrounds)
      rw [List.flatMap_cons, List.append_assoc, takeLineText?_escapeBasic, htail]
      rfl

theorem escapeBasic_eq_cons (c : Char) : ∃ d ds, escapeBasic c = d :: ds ∧ d ≠ '"' := by
  rcases escapeBasic_cases c with ⟨hself, hquote, -, -⟩ | ⟨e, hescape, -⟩
  · exact ⟨c, [], hself, hquote⟩
  · exact ⟨'\\', e, hescape, by decide⟩

theorem length_le_length_flatMap_escapeBasic (cs : List Char) : cs.length ≤ (cs.flatMap escapeBasic).length := by
  induction cs with
  | nil => exact Nat.le_refl 0
  | cons c cs ih =>
      obtain ⟨d, ds, hc, -⟩ := escapeBasic_eq_cons c
      simp only [List.flatMap_cons, List.length_append, List.length_cons, hc]
      omega

/-- Written text does not begin like text over lines, since a quote in it is escaped. -/
theorem takeText?_written (cs rest : List Char) :
    takeText? '"' (cs.flatMap escapeBasic ++ '"' :: '\n' :: rest) = some (String.ofList cs, '\n' :: rest) := by
  have hblock : ['"', '"'].isPrefixOf (cs.flatMap escapeBasic ++ '"' :: '\n' :: rest) = false := by
    cases cs with
    | nil => rfl
    | cons c cs =>
        obtain ⟨d, ds, hc, hd⟩ := escapeBasic_eq_cons c
        simp [List.flatMap_cons, hc, List.isPrefixOf, Ne.symm hd]
  have hrounds : cs.length < (cs.flatMap escapeBasic ++ '"' :: '\n' :: rest).length := by
    have hle := length_le_length_flatMap_escapeBasic cs
    simp only [List.length_append, List.length_cons]
    omega
  rw [takeText?, hblock, if_neg Bool.false_ne_true, takeQuoted?, takeLineText?_written cs hrounds]
  rfl

theorem readsAs_writeText (cs : List Char) : ReadsAs (writeText cs) (.text (String.ofList cs)) := by
  intro levels rest
  have htake := takeText?_written cs rest
  simp [writeText, skipSpaces, isSpace, takeValue?, htake]

/-! ### Single characters -/

theorem readsAs_literal {c : Char} (hc : c = '\\' ∨ c = '"') :
    ReadsAs ['\x27', c, '\x27'] (.text (String.singleton c)) := by
  intro levels rest
  rcases hc with rfl | rfl <;>
    simp [skipSpaces, isSpace, takeValue?, takeText?, List.isPrefixOf, takeQuoted?, takeLineText?, isPlain]

theorem readsAs_lineFeed :
    ReadsAs ['"', '"', '"', '\n', '\n', '"', '"', '"'] (.text (String.singleton '\n')) := by
  intro levels rest
  simp [skipSpaces, isSpace, takeValue?, takeText?, List.isPrefixOf, takeLineEnd?, takeBlockText?]

/-- Every character is read back, also those that no valid settings have. -/
theorem readsAs_writeChar (c : Char) : ReadsAs (writeChar c) (.text (String.singleton c)) := by
  unfold writeChar
  split
  · next hliteral => exact readsAs_literal hliteral
  split
  · next hline =>
      rw [hline]
      exact readsAs_lineFeed
  · simpa using readsAs_writeText [c]

end Transcript.Toml
