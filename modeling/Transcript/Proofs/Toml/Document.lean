import Mathlib.Data.List.Forall2
import Transcript.Proofs.Toml.Text

/-!
Written documents are read back. Every line of a section is read with whatever follows it, so the lines of a document
are read one by one. Keys need no quotes, and no key and no section is written twice, so the lines are put together
to the tables that were written: the format is faithful.
-/
namespace Transcript.Toml

/-! ### Lines -/

/-- A text with a line end is read as a line, whatever follows it. -/
structure LineAs (text : List Char) (line : Line) : Prop where
  ne_nil : text ≠ []
  takeLine? : ∀ rest, Toml.takeLine? (text ++ rest) = some (line, rest)

/-- A text is read as lines. -/
inductive LinesAs : List Char → List Line → Prop
  | nil : LinesAs [] []
  | cons {text more : List Char} {line : Line} {lines : List Line} :
      LineAs text line → LinesAs more lines → LinesAs (text ++ more) (line :: lines)

theorem LinesAs.append {text more : List Char} {lines others : List Line} (h : LinesAs text lines)
    (hmore : LinesAs more others) : LinesAs (text ++ more) (lines ++ others) := by
  induction h with
  | nil => exact hmore
  | cons hline _ ih =>
      rw [List.append_assoc]
      exact .cons hline ih

/-- The lines are taken one by one, a round for each. -/
theorem LinesAs.takeDocument? {text : List Char} {lines : List Line} (h : LinesAs text lines) {rounds : Nat}
    (hrounds : text.length ≤ rounds) : Toml.takeDocument? rounds text = some lines := by
  induction h generalizing rounds with
  | nil => cases rounds <;> rfl
  | @cons text more line lines hline _ ih =>
      have htake := hline.takeLine? more
      cases text with
      | nil => exact absurd rfl hline.ne_nil
      | cons c cs =>
          simp only [List.cons_append, List.length_cons, List.length_append] at hrounds htake ⊢
          obtain ⟨rounds, rfl⟩ := Nat.exists_eq_add_one_of_ne_zero (Nat.ne_zero_of_lt hrounds)
          -- The line takes a character, so the rounds that are left suffice for the lines behind it.
          have hbehind : Toml.takeDocument? rounds more = some lines := ih (by omega)
          simp [Toml.takeDocument?, htake, hbehind]

theorem finishLine?_lineFeed (rest : List Char) : finishLine? ('\n' :: rest) = some rest := by
  simp [finishLine?, skipSpaces, isSpace, skipComment, takeLineEnd?]

theorem lineAs_empty : LineAs ['\n'] .empty where
  ne_nil := List.cons_ne_nil _ _
  takeLine? := fun rest => by simp [Toml.takeLine?, finishLine?_lineFeed]

/-! ### Keys without quotes -/

/-- The key of a pair or a header in the table that it stands in. -/
def Key.bare (key : String) : Key := { path := [], last := key }

theorem ne_of_isBare {c d : Char} (hc : isBare c = true) (hd : isBare d = false) : c ≠ d :=
  ne_of_apply_ne isBare (by simp [hc, hd])

theorem IsBareKey.eq_cons {key : String} (h : IsBareKey key) :
    ∃ c cs, key.toList = c :: cs ∧ isBare c = true := by
  cases hkey : key.toList with
  | nil => exact absurd hkey h.ne_nil
  | cons c cs => exact ⟨c, cs, rfl, h.all_isBare c (by rw [hkey]; exact List.mem_cons_self)⟩

theorem skipSpaces_of_isBare {c : Char} (hc : isBare c = true) (cs : List Char) :
    skipSpaces (c :: cs) = c :: cs := by
  have hspace : isSpace c = false := by
    simp [isSpace, ne_of_isBare hc (d := ' ') (by decide), ne_of_isBare hc (d := '\t') (by decide)]
  exact skipSpaces_cons hspace cs

/-- No line ends where a key begins. -/
theorem finishLine?_of_isBare {c : Char} (hc : isBare c = true) (cs : List Char) : finishLine? (c :: cs) = none := by
  have hcomment : c ≠ '#' := ne_of_isBare hc (by decide)
  have hfeed : c ≠ '\n' := ne_of_isBare hc (by decide)
  have hreturn : c ≠ '\r' := ne_of_isBare hc (by decide)
  simp [finishLine?, skipSpaces_of_isBare hc, skipComment, takeLineEnd?, hcomment, hfeed, hreturn]

theorem takeKeyPart?_bare {key : String} (h : IsBareKey key) {d : Char} (hd : isBare d = false) (rest : List Char) :
    takeKeyPart? (key.toList ++ d :: rest) = some (key, d :: rest) := by
  have htake : (key.toList ++ d :: rest).takeWhile isBare = key.toList := by
    rw [List.takeWhile_append_of_pos h.all_isBare, List.takeWhile_cons_of_neg (by simp [hd]), List.append_nil]
  have hdrop : (key.toList ++ d :: rest).dropWhile isBare = d :: rest := by
    rw [List.dropWhile_append_of_pos h.all_isBare, List.dropWhile_cons_of_neg (by simp [hd])]
  obtain ⟨c, cs, hkey, hc⟩ := h.eq_cons
  rw [hkey, List.cons_append] at htake hdrop ⊢
  rw [takeKeyPart?, htake, hdrop, ← hkey, String.ofList_toList]
  · simp [hkey]
  · rintro cs' heq
    exact ne_of_isBare hc (d := '"') (by decide) (List.cons.inj heq).1
  · rintro cs' heq
    exact ne_of_isBare hc (d := '\x27') (by decide) (List.cons.inj heq).1

/-- A key is read up to a character that it cannot have, unless a point follows. -/
theorem takeKey?_bare {key : String} (h : IsBareKey key) {d : Char} (hd : isBare d = false) (rest : List Char)
    (hpoint : ∀ cs, skipSpaces (d :: rest) ≠ '.' :: cs) :
    takeKey? nestingLimit (key.toList ++ d :: rest) =
      some (.bare key, skipSpaces (d :: rest)) := by
  have hpart := takeKeyPart?_bare h hd rest
  obtain ⟨c, cs, hkey, hc⟩ := h.eq_cons
  rw [hkey, List.cons_append] at hpart ⊢
  have hparts : takeKeyParts? (c :: (cs ++ d :: rest)).length (c :: (cs ++ d :: rest)) =
      some ([key], skipSpaces (d :: rest)) := by
    rw [List.length_cons, takeKeyParts?, skipSpaces_of_isBare hc, hpart]
    dsimp only [Option.bind_eq_bind, Option.bind_some]
    split
    · next cs' heq => exact absurd heq (hpoint cs')
    · rfl
  rw [takeKey?, hparts]
  rfl

/-! ### Written lines -/

theorem takeHeader?_bare {name : String} (h : IsBareKey name) (rest : List Char) :
    takeHeader? (name.toList ++ ']' :: rest) = some (.table (.bare name), rest) := by
  have hstop : skipSpaces (']' :: rest) = ']' :: rest := skipSpaces_cons (by decide) rest
  have hkey := takeKey?_bare h (d := ']') (by decide) rest (by rw [hstop]; simp)
  rw [hstop] at hkey
  obtain ⟨c, cs, hname, hc⟩ := h.eq_cons
  rw [hname, List.cons_append] at hkey ⊢
  rw [takeHeader?]
  · simp [hkey, takeChar?]
  · rintro cs' heq
    exact ne_of_isBare hc (d := '[') (by decide) (List.cons.inj heq).1

theorem lineAs_header {name : String} (h : IsBareKey name) :
    LineAs ('[' :: (name.toList ++ [']', '\n'])) (.header (.table (.bare name))) where
  ne_nil := List.cons_ne_nil _ _
  takeLine? := fun rest => by
    have hhead := takeHeader?_bare h ('\n' :: rest)
    have hopen : ∀ cs, finishLine? ('[' :: cs) = none := fun cs => by
      simp [finishLine?, skipSpaces, isSpace, skipComment, takeLineEnd?]
    simp [Toml.takeLine?, hopen, skipSpaces, isSpace, hhead, finishLine?_lineFeed]

theorem takePair?_bare {key : String} (h : IsBareKey key) {text : List Char} {v : Toml} (hv : ReadsAs text v)
    (levels : Nat) (rest : List Char) :
    takePair? (takeValue? levels) (writePair key text ++ rest) =
      some ((.bare key, v), '\n' :: rest) := by
  have hstop : skipSpaces (' ' :: '=' :: ' ' :: (text ++ '\n' :: rest)) = '=' :: ' ' :: (text ++ '\n' :: rest) := by
    simp [skipSpaces, isSpace]
  have hkey := takeKey?_bare h (d := ' ') (by decide) ('=' :: ' ' :: (text ++ '\n' :: rest)) (by rw [hstop]; simp)
  have hvalue : takeValue? levels (skipSpaces (' ' :: (text ++ '\n' :: rest))) = some (v, '\n' :: rest) := by
    simpa [skipSpaces, isSpace] using hv levels rest
  rw [hstop] at hkey
  simp [writePair, takePair?, hkey, takeChar?, hvalue]

theorem lineAs_writePair {key : String} (h : IsBareKey key) {text : List Char} {v : Toml} (hv : ReadsAs text v) :
    LineAs (writePair key text) (.pair (.bare key) v) where
  ne_nil := by simp [writePair]
  takeLine? := fun rest => by
    have hpair := takePair?_bare h hv (nestingLimit - 1) rest
    obtain ⟨c, cs, hkey, hc⟩ := h.eq_cons
    obtain ⟨cs, htext⟩ : ∃ cs, writePair key text ++ rest = c :: cs := by simp [writePair, hkey]
    rw [htext] at hpair ⊢
    have hheader : c ≠ '[' := ne_of_isBare hc (by decide)
    simp [Toml.takeLine?, finishLine?_of_isBare hc, skipSpaces_of_isBare hc, hheader, hpair, finishLine?_lineFeed]

/-! ### Sections -/

/-- The pairs of a section under keys without quotes. -/
def barePairs (entries : Entries) : List (Key × Toml) := entries.map fun e => (.bare e.1, e.2)

/-- A table under a header without quotes. -/
def bareSection (name : String) (entries : Entries) : Section :=
  { header := .table (.bare name), pairs := barePairs entries }

/-- The lines of a section. -/
def sectionLines (name : String) (entries : Entries) : List Line :=
  .header (.table (.bare name)) :: (barePairs entries).map fun p => .pair p.1 p.2

/-- A written pair has the key of an entry, and its value is read back. -/
structure PairAs (written : String × List Char) (entry : String × Toml) : Prop where
  key_eq : written.1 = entry.1
  readsAs : ReadsAs written.2 entry.2

theorem linesAs_pairs {pairs : List (String × List Char)} {entries : Entries} (h : List.Forall₂ PairAs pairs entries)
    (hkeys : ∀ e ∈ entries, IsBareKey e.1) :
    LinesAs (pairs.flatMap fun (key, v) => writePair key v) ((barePairs entries).map fun p => .pair p.1 p.2) := by
  induction h with
  | nil => exact .nil
  | cons hpair _ ih =>
      obtain ⟨hkey, hkeys⟩ := List.forall_mem_cons.1 hkeys
      simp only [List.flatMap_cons, barePairs, List.map_cons, hpair.key_eq]
      exact .cons (lineAs_writePair hkey hpair.readsAs) (ih hkeys)

theorem linesAs_writeSection {name : String} (hname : IsBareKey name) {pairs : List (String × List Char)}
    {entries : Entries} (h : List.Forall₂ PairAs pairs entries) (hkeys : ∀ e ∈ entries, IsBareKey e.1) :
    LinesAs (writeSection name pairs) (sectionLines name entries) := by
  have hlines := LinesAs.cons (lineAs_header hname) (linesAs_pairs h hkeys)
  simpa [writeSection, sectionLines] using hlines

@[simp] theorem sectionsOf_empty (lines : List Line) : sectionsOf (.empty :: lines) = sectionsOf lines := by
  simp [sectionsOf]

theorem sectionsOf_sectionLines (name : String) (entries : Entries) {lines : List Line} {sections : List Section}
    (h : sectionsOf lines = ([], sections)) :
    sectionsOf (sectionLines name entries ++ lines) = ([], bareSection name entries :: sections) := by
  have hpairs : ∀ pairs : List (Key × Toml),
      sectionsOf (pairs.map (fun p => Line.pair p.1 p.2) ++ lines) = (pairs, sections) := by
    intro pairs
    induction pairs with
    | nil => exact h
    | cons p pairs ih => simp [sectionsOf, ih]
  simp [sectionLines, sectionsOf, hpairs, bareSection]

/-! ### Tables -/

theorem lookup_eq_none {key : String} {entries : Entries} (h : key ∉ entries.map Prod.fst) :
    entries.lookup key = none := by
  rw [List.lookup_eq_none_iff]
  intro e he
  have hne : key ≠ e.1 := fun heq => h (heq ▸ List.mem_map_of_mem he)
  simpa using hne

/-- Pairs whose keys differ are added in order. -/
theorem assignAll?_barePairs (entries table : Entries) (h : ((table ++ entries).map Prod.fst).Nodup) :
    assignAll? (barePairs entries) table = some (table ++ entries) := by
  induction entries generalizing table with
  | nil => simp [assignAll?, barePairs]
  | cons e entries ih =>
      have hfresh : table.lookup e.1 = none := by
        refine lookup_eq_none fun hmem => ?_
        rw [List.map_append, List.nodup_append] at h
        exact h.2.2 e.1 hmem e.1 (by simp) rfl
      have hassign : assign? table (.bare e.1) e.2 = some (table ++ [e]) := by
        simp [assign?, Key.bare, changeAt?, hfresh]
      have htail := ih (table ++ [e]) (by simpa using h)
      simp only [assignAll?, barePairs] at htail ⊢
      rw [List.map_cons, List.foldlM_cons, hassign]
      simpa using htail

/-- Sections whose names differ become tables in order. -/
theorem foldlM_addSection? (tables : List (String × Entries)) (root : Entries)
    (hnames : (root.map Prod.fst ++ tables.map Prod.fst).Nodup)
    (hkeys : ∀ table ∈ tables, (table.2.map Prod.fst).Nodup) :
    (tables.map fun table => bareSection table.1 table.2).foldlM addSection? root =
      some (root ++ tables.map fun table => (table.1, .table .header table.2)) := by
  induction tables generalizing root with
  | nil => simp
  | cons table tables ih =>
      obtain ⟨hkey, hkeys⟩ := List.forall_mem_cons.1 hkeys
      have hfresh : root.lookup table.1 = none := by
        refine lookup_eq_none fun hmem => ?_
        rw [List.nodup_append] at hnames
        exact hnames.2.2 table.1 hmem table.1 (by simp) rfl
      have hadd : addSection? root (bareSection table.1 table.2)
          = some (root ++ [(table.1, .table .header table.2)]) := by
        have hbody := assignAll?_barePairs table.2 [] hkey
        simp [addSection?, bareSection, Key.bare, changeAt?, defineTable?, hfresh, hbody]
      have htail := ih (root ++ [(table.1, .table .header table.2)]) (by simpa using hnames) hkeys
      rw [List.map_cons, List.foldlM_cons, hadd]
      simpa using htail

/-- A document whose lines make up sections gives their tables. -/
theorem parse?_of_linesAs {text : List Char} {lines : List Line} (hlines : LinesAs text lines)
    (hmark : text.head? ≠ some '\ufeff') (tables : List (String × Entries))
    (hsections : sectionsOf lines = ([], tables.map fun table => bareSection table.1 table.2))
    (hnames : (tables.map Prod.fst).Nodup) (hkeys : ∀ table ∈ tables, (table.2.map Prod.fst).Nodup) :
    parse? (String.ofList text) = some (tables.map fun table => (table.1, .table .header table.2)) := by
  have hread : takeDocument? text.length text = some lines := hlines.takeDocument? (Nat.le_refl _)
  have htables := foldlM_addSection? tables [] hnames hkeys
  have hassemble : assemble? lines = some (tables.map fun table => (table.1, .table .header table.2)) := by
    simpa [assemble?, hsections, assignAll?] using htables
  rw [parse?, String.toList_ofList]
  split
  · exact absurd rfl hmark
  · simp [hread, hassemble]

/-! ### The format -/

/-- A function that has a result for every item has a list of them. -/
theorem exists_mapM {α β : Type} {f : α → Option β} {R : β → α → Prop} {xs : List α}
    (h : ∀ x ∈ xs, ∃ y, f x = some y ∧ R y x) : ∃ ys, xs.mapM f = some ys ∧ List.Forall₂ R ys xs := by
  induction xs with
  | nil => exact ⟨[], rfl, .nil⟩
  | cons x xs ih =>
      obtain ⟨⟨y, hy, hr⟩, hxs⟩ := List.forall_mem_cons.1 h
      obtain ⟨ys, hys, hrs⟩ := ih hxs
      exact ⟨y :: ys, by simp [List.mapM_cons, hy, hys], .cons hr hrs⟩

theorem exists_writeValue? {v : Toml} (h : IsScalar v) : ∃ text, writeValue? v = some text ∧ ReadsAs text v := by
  cases h with
  | text s =>
      rw [writeValue?]
      split
      · next c hc =>
          rw [← String.ofList_toList (s := s), hc]
          exact ⟨writeChar c, rfl, readsAs_writeChar c⟩
      · next cs _ => exact ⟨writeText s.toList, rfl, by simpa using readsAs_writeText s.toList⟩
  | @integer n hnonneg hfits =>
      obtain ⟨n, rfl⟩ := Int.eq_ofNat_of_zero_le hnonneg
      exact ⟨writeNumber n, by rw [writeValue?, if_pos ⟨hnonneg, hfits⟩, Int.toNat_natCast],
        readsAs_writeNumber hfits⟩
  | boolean b => exact ⟨writeBoolean b, rfl, readsAs_writeBoolean b⟩

theorem exists_writeItem? {e : String × Toml} (hkey : IsBareKey e.1) (hvalue : IsScalar e.2) :
    ∃ pair, writeItem? e = some pair ∧ PairAs pair e := by
  obtain ⟨text, hwrite, hread⟩ := exists_writeValue? hvalue
  exact ⟨(e.1, text), by rw [writeItem?, if_pos hkey, hwrite]; rfl, rfl, hread⟩

/-- A written section, which begins with the bracket of its header. -/
structure SectionAs (text : List Char) (table : String × Entries) : Prop where
  linesAs : LinesAs text (sectionLines table.1 table.2)
  head?_eq : text.head? = some '['

theorem exists_writeTable? {table : String × Entries} (hname : IsBareKey table.1)
    (hkeys : ∀ e ∈ table.2, IsBareKey e.1) (hvalues : ∀ e ∈ table.2, IsScalar e.2) (origin : Origin) :
    ∃ text, writeTable? (table.1, .table origin table.2) = some text ∧ SectionAs text table := by
  obtain ⟨pairs, hwrite, hpairs⟩ := exists_mapM fun e he => exists_writeItem? (hkeys e he) (hvalues e he)
  refine ⟨writeSection table.1 pairs, ?_, linesAs_writeSection hname hpairs hkeys, rfl⟩
  rw [writeTable?, if_pos hname, hwrite]
  rfl

/-- Sections with empty lines between them are read as the sections. -/
theorem linesAs_intercalate {texts : List (List Char)} {tables : List (String × Entries)}
    (h : List.Forall₂ SectionAs texts tables) :
    (['\n'].intercalate texts).head? ≠ some '\ufeff'
      ∧ ∃ lines, LinesAs (['\n'].intercalate texts) lines
        ∧ sectionsOf lines = ([], tables.map fun table => bareSection table.1 table.2) := by
  induction h with
  | nil => exact ⟨by simp, [], .nil, rfl⟩
  | @cons text table texts tables hsection hrest ih =>
      obtain ⟨-, lines, hlines, hsections⟩ := ih
      obtain ⟨cs, rfl⟩ := List.head?_eq_some_iff.1 hsection.head?_eq
      cases hrest with
      | nil =>
          rw [List.intercalate_singleton]
          refine ⟨by simp, sectionLines table.1 table.2, hsection.linesAs, ?_⟩
          simpa using @sectionsOf_sectionLines table.1 table.2 [] [] rfl
      | cons _ _ =>
          rw [List.intercalate_cons_cons, List.append_assoc]
          refine ⟨by simp, sectionLines table.1 table.2 ++ .empty :: lines, ?_, ?_⟩
          · exact hsection.linesAs.append (.cons lineAs_empty hlines)
          · exact sectionsOf_sectionLines table.1 table.2 (by rw [sectionsOf_empty, hsections])

/-- This writer writes every flat table, and this reader reads what it writes. -/
theorem isFaithful_format : format.IsFaithful := by
  have hwritten : ∀ {tables : List (String × Entries)}, Flat tables →
      ∃ text, write? (ofTables tables) = some text ∧ parse? text = some (ofTables tables) := by
    intro tables h
    obtain ⟨texts, hwrite, htexts⟩ := exists_mapM fun table htable =>
      exists_writeTable? (h.isBareKey_name table htable) (h.isBareKey_key table htable) (h.isScalar table htable)
        .header
    obtain ⟨hmark, lines, hlines, hsections⟩ := linesAs_intercalate htexts
    refine ⟨String.ofList (['\n'].intercalate texts), ?_, ?_⟩
    · rw [write?, ofTables, List.mapM_map]
      exact congrArg (Option.map _) hwrite
    · exact parse?_of_linesAs hlines hmark tables hsections h.nodup_names h.nodup_keys
  constructor
  · intro tables h
    obtain ⟨text, hwrite, -⟩ := hwritten h
    exact ⟨text, hwrite⟩
  · intro tables h text hwrite
    obtain ⟨text', hwrite', hread⟩ := hwritten h
    obtain rfl := Option.some.inj (hwrite.symm.trans hwrite')
    exact hread

end Transcript.Toml
