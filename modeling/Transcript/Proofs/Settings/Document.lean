import Mathlib.Algebra.Group.Nat.Defs
import Transcript.Proofs.Toml.Document
import Transcript.Settings.Document

/-!
Written settings are read back. In any format that gives back the flat tables that it writes, the document of settings
gives the settings again: both tables, every choice, every number and every character. A key that is left out gives its
default. Whether settings are valid is checked only then, on the settings that were read.
-/
namespace Transcript

namespace Settings

/-! ### Values -/

theorem language?_text (l : Language) : language? (.text l.name) = some l := l.ofName?_name

theorem level?_text (l : LogLevel) : level? (.text l.name) = some l := l.ofName?_name

theorem number?_integer {bound n : Nat} (h : n < bound) : number? bound (.integer n) = some n := by
  simp [number?, h]

theorem lt_of_number? {bound n : Nat} {v : Toml} (h : number? bound v = some n) : n < bound := by
  cases v with
  | integer i =>
      rw [number?] at h
      split at h
      · next hbounds =>
          rw [← Option.some.inj h]
          omega
      · cases h
  | _ => cases h

theorem boolean?_boolean (b : Bool) : boolean? (.boolean b) = some b := rfl

theorem char?_text (c : Char) : char? (.text (String.singleton c)) = some c := by
  simp [char?]

-- The reader stays closed in these, so that no proof below makes Lean count up to the bound of a number.
theorem orDefault_some (read : Toml → Option α) (default : α) (v : Toml) :
    orDefault read default (some v) = read v := by
  rw [orDefault]

/-- A value that is left out gives the default. -/
theorem orDefault_ite {read : Toml → Option α} {v : Toml} {x : α} (h : read v = some x) (default : α) (kept : Bool) :
    orDefault read default (if kept then some v else none) = some (if kept then x else default) := by
  cases kept with
  | true => exact h
  | false => rfl

theorem lt_of_orDefault {bound n default : Nat} (hdefault : default < bound) {v : Option Toml}
    (h : orDefault (number? bound) default v = some n) : n < bound := by
  cases v with
  | none => rwa [← Option.some.inj h]
  | some v => exact lt_of_number? h

/-! ### Tables -/

/-- All numbers of the settings fit their words. -/
structure Fits (s : Settings) : Prop where
  buffer : s.buffer < handleBound
  window : s.window < handleBound
  indent : s.indent < sizeBound
  historySize : s.historySize < sizeBound

theorem keys_entries (s : Settings) : s.entries.map Prod.fst = keys := rfl

theorem isBareKey_of_mem_keys : ∀ key ∈ keys, Toml.IsBareKey key := by decide

theorem nodup_keys : keys.Nodup := by decide

theorem isScalar_entries {s : Settings} (h : s.Fits) : ∀ e ∈ s.entries, Toml.IsScalar e.2 := by
  have hnumber : ∀ {n : Nat}, n < sizeBound → Toml.IsScalar (.integer n) := by
    intro n hn
    rw [sizeBound] at hn
    exact .integer (by omega) (by rw [Word.bound]; omega)
  have hhandle : ∀ {n : Nat}, n < handleBound → n < sizeBound := fun hn => Nat.lt_trans hn (by decide)
  simp only [entries, List.forall_mem_cons]
  exact ⟨.text _, hnumber (hhandle h.buffer), hnumber (hhandle h.window), hnumber h.indent, .boolean _, .boolean _,
    hnumber h.historySize, .boolean _, .text _, .text _, List.forall_mem_nil _⟩

/-- The settings whose keys are kept. The others are as they are by default. -/
def keeping (kept : String → Bool) (s : Settings) : Settings where
  language := if kept "lang" then s.language else .lua
  buffer := if kept "buffer" then s.buffer else 0
  window := if kept "window" then s.window else 0
  indent := if kept "indent" then s.indent else 0
  redraw := if kept "redraw" then s.redraw else true
  inspect := if kept "inspect" then s.inspect else false
  historySize := if kept "history_size" then s.historySize else 1000
  noDefaults := if kept "no_defaults" then s.noDefaults else false
  marker := if kept "marker" then s.marker else '\\'
  leader := if kept "prefix" then s.leader else '/'

theorem keeping_all (s : Settings) : s.keeping (fun _ => true) = s := rfl

example (s : Settings) : s.keeping (fun _ => false) = {} := rfl

theorem lookup_filter (kept : String → Bool) (key : String) (entries : Toml.Entries) :
    (entries.filter fun e => kept e.1).lookup key = if kept key then entries.lookup key else none := by
  induction entries with
  | nil => simp
  | cons e entries ih =>
      rw [List.lookup_cons, List.filter_cons]
      cases hkey : key == e.1 with
      | true =>
          -- Behind an entry that is dropped no other one is found, for its key is not kept.
          rw [eq_of_beq hkey] at ih ⊢
          split
          · rw [List.lookup_cons, beq_self_eq_true]
          next hdropped => rw [ih, if_neg hdropped]
      | false =>
          split
          · rw [List.lookup_cons, hkey]
            exact ih
          · exact ih

/-- A table of settings gives the settings whose keys it has. -/
theorem ofToml?_entries {s : Settings} (h : s.Fits) (kept : String → Bool) (origin : Toml.Origin) :
    ofToml? (.table origin (s.entries.filter fun e => kept e.1)) = some (s.keeping kept) := by
  have hkeys : ((s.entries.filter fun e => kept e.1).all fun e => keys.contains e.1) = true := by
    rw [List.all_eq_true]
    intro e he
    rw [List.contains_iff_mem, ← keys_entries s]
    exact List.mem_map_of_mem (List.mem_of_mem_filter he)
  rw [ofToml?, if_pos hkeys]
  simp [ofValues?, lookup_filter, entries, List.lookup_cons, orDefault_ite (language?_text _),
    orDefault_ite (number?_integer h.buffer), orDefault_ite (number?_integer h.window),
    orDefault_ite (number?_integer h.indent), orDefault_ite (number?_integer h.historySize),
    orDefault_ite (char?_text _), orDefault_ite (boolean?_boolean _), keeping, History.defaultCapacity, defaultMarker, defaultLeader]

/-- Every table that gives settings gives numbers that fit their words. -/
theorem fits_of_ofValues? {get : String → Option Toml} {s : Settings} (h : ofValues? get = some s) : s.Fits := by
  simp only [ofValues?, Option.bind_eq_bind, Option.bind_eq_some_iff, Option.pure_def, Option.some.injEq] at h
  obtain ⟨_, -, buffer, hbuffer, window, hwindow, indent, hindent, _, -, _, -, size, hsize, _, -, _, -, _, -, rfl⟩ := h
  exact {
    buffer := lt_of_orDefault (by decide) hbuffer
    window := lt_of_orDefault (by decide) hwindow
    indent := lt_of_orDefault (by decide) hindent
    historySize := lt_of_orDefault (by decide) hsize }

theorem fits_of_ofToml? {v : Toml} {s : Settings} (h : ofToml? v = some s) : s.Fits := by
  cases v with
  | table origin entries =>
      rw [ofToml?] at h
      split at h
      · exact fits_of_ofValues? h
      · cases h
  | array items =>
      rw [ofToml?] at h
      exact fits_of_ofValues? h
  | series tables =>
      rw [ofToml?] at h
      exact fits_of_ofValues? h
  | _ => cases h

theorem fits_default : Fits {} := ⟨by decide, by decide, by decide, by decide⟩

/-- What settings pass that are valid. -/
theorem isValid_iff {s : Settings} :
    s.IsValid ↔ s.indent ≤ 32 ∧ 1 ≤ s.historySize ∧ isWordly s.marker = false ∧ isWordly s.leader = false
      ∧ s.marker ≠ s.leader := by
  have hfirst : ∀ {p : Prop} [Decidable p] {flaw : Flaw} {others : Option Flaw},
      (if p then some flaw else others) = none ↔ ¬ p ∧ others = none := by
    intro p _ flaw others
    split <;> simp [*]
  rw [IsValid, flaw?, hfirst, hfirst, hfirst, hfirst, hfirst, Nat.not_lt, Bool.not_eq_true, Bool.not_eq_true, ← ne_eq,
    ← Nat.one_le_iff_ne_zero, and_iff_left rfl]
  rfl

theorem IsValid.indent_lt {s : Settings} (h : s.IsValid) : s.indent < sizeBound :=
  Nat.lt_of_le_of_lt (isValid_iff.1 h).1 (by decide)

end Settings

namespace UserSettings

/-! ### Documents -/

/-- The settings of a user whose keys are kept. -/
def keeping (kept : String → Bool) (s : UserSettings) : UserSettings where
  repl := s.repl.keeping kept
  level := if kept "level" then s.level else .warn

theorem keeping_all (s : UserSettings) : s.keeping (fun _ => true) = s := rfl

/-- The tables of settings with the keys that are kept. -/
def tablesOf (kept : String → Bool) (s : UserSettings) : List (String × Toml.Entries) :=
  s.tables.map fun table => (table.1, table.2.filter fun e => kept e.1)

theorem tablesOf_all (s : UserSettings) : s.tablesOf (fun _ => true) = s.tables := by
  simp [tablesOf]

theorem flat_tables {s : UserSettings} (h : s.repl.Fits) : Toml.Flat s.tables := by
  have hrepl : Toml.IsBareKey "repl" := by decide
  have hlog : Toml.IsBareKey "log" := by decide
  have hlevel : Toml.IsBareKey "level" := by decide
  have hkeys : ∀ e ∈ s.repl.entries, Toml.IsBareKey e.1 := by
    intro e he
    apply Settings.isBareKey_of_mem_keys
    rw [← Settings.keys_entries s.repl]
    exact List.mem_map_of_mem he
  refine {
    isBareKey_name := List.forall_mem_cons.2 ⟨hrepl, List.forall_mem_singleton.2 hlog⟩
    nodup_names := ?_
    isBareKey_key := List.forall_mem_cons.2 ⟨hkeys, List.forall_mem_singleton.2 (List.forall_mem_singleton.2 hlevel)⟩
    nodup_keys := List.forall_mem_cons.2 ⟨?_, List.forall_mem_singleton.2 (List.pairwise_singleton _ _)⟩
    isScalar := List.forall_mem_cons.2
      ⟨Settings.isScalar_entries h, List.forall_mem_singleton.2 (List.forall_mem_singleton.2 (.text _))⟩ }
  · show ["repl", "log"].Nodup
    decide
  · rw [Settings.keys_entries]
    exact Settings.nodup_keys

theorem flat_filter {tables : List (String × Toml.Entries)} (h : Toml.Flat tables) (kept : String → Bool) :
    Toml.Flat (tables.map fun table => (table.1, table.2.filter fun e => kept e.1)) where
  isBareKey_name := by
    rw [List.forall_mem_map]
    exact h.isBareKey_name
  nodup_names := by
    rw [List.map_map]
    exact h.nodup_names
  isBareKey_key := by
    rw [List.forall_mem_map]
    exact fun table htable e he => h.isBareKey_key table htable e (List.mem_of_mem_filter he)
  nodup_keys := by
    rw [List.forall_mem_map]
    exact fun table htable => (h.nodup_keys table htable).sublist (List.filter_sublist.map _)
  isScalar := by
    rw [List.forall_mem_map]
    exact fun table htable e he => h.isScalar table htable e (List.mem_of_mem_filter he)

theorem levelOf?_entries (level : LogLevel) (kept : String → Bool) (origin : Toml.Origin) :
    levelOf? (.table origin ([("level", .text level.name)].filter fun e => kept e.1))
      = some (if kept "level" then level else .warn) := by
  rw [levelOf?, Settings.lookup_filter]
  exact Settings.orDefault_ite (Settings.level?_text level) .warn (kept "level")

theorem ofEntries?_tablesOf {s : UserSettings} (h : s.repl.Fits) (kept : String → Bool) :
    ofEntries? (Toml.ofTables (s.tablesOf kept)) = some (s.keeping kept) := by
  have hrepl := Settings.ofToml?_entries h kept .header
  have hlevel := levelOf?_entries s.level kept .header
  have hfirst : (Toml.ofTables (s.tablesOf kept)).lookup "repl"
      = some (.table .header (s.repl.entries.filter fun e => kept e.1)) := rfl
  have hsecond : (Toml.ofTables (s.tablesOf kept)).lookup "log"
      = some (.table .header ([("level", .text s.level.name)].filter fun e => kept e.1)) := rfl
  rw [ofEntries?, hfirst, hsecond, Settings.orDefault_some, Settings.orDefault_some, hrepl, hlevel]
  rfl

theorem fits_of_ofEntries? {entries : Toml.Entries} {s : UserSettings} (h : ofEntries? entries = some s) :
    s.repl.Fits := by
  simp only [ofEntries?, Option.bind_eq_bind, Option.bind_eq_some_iff, Option.pure_def, Option.some.injEq] at h
  obtain ⟨repl, hrepl, _, -, rfl⟩ := h
  cases hlookup : entries.lookup "repl" with
  | none =>
      rw [hlookup] at hrepl
      rw [← Option.some.inj hrepl]
      exact Settings.fits_default
  | some v =>
      rw [hlookup, Settings.orDefault_some] at hrepl
      exact Settings.fits_of_ofToml? hrepl

/-- Settings pass the check as they are, and only valid ones do. -/
theorem eq_of_checked {s s' : UserSettings} (h : s.checked = .ok s') : s = s' ∧ s'.repl.IsValid := by
  rw [checked] at h
  split at h
  · cases h
  next hnone =>
    obtain rfl := Except.ok.inj h
    exact ⟨rfl, hnone⟩

variable {f : Toml.Format}

/-- **Keys that are left out.** The document of some keys of settings is read as the settings with all others as they
are by default, and then checked. -/
theorem parseIn_of_write? (hf : f.IsFaithful) {s : UserSettings} (h : s.repl.Fits) (kept : String → Bool) :
    ∃ text, f.write? (Toml.ofTables (s.tablesOf kept)) = some text ∧ parseIn f text = (s.keeping kept).checked := by
  have hflat := flat_filter (flat_tables h) kept
  obtain ⟨text, hwrite⟩ := hf.writes hflat
  refine ⟨text, hwrite, ?_⟩
  have hread : (f.read? text).bind ofEntries? = some (s.keeping kept) := by
    rw [hf.reads_back hflat hwrite]
    exact ofEntries?_tablesOf h kept
  rw [parseIn, hread]

theorem exists_writeIn (hf : f.IsFaithful) {s : UserSettings} (hvalid : s.repl.IsValid) (hfits : s.repl.Fits) :
    ∃ text, s.writeIn f = .ok text ∧ parseIn f text = .ok s := by
  obtain ⟨text, hwrite, hparse⟩ := parseIn_of_write? hf hfits fun _ => true
  have hflaw : s.repl.flaw? = none := hvalid
  refine ⟨text, ?_, ?_⟩
  · rw [tablesOf_all] at hwrite
    rw [writeIn, hwrite]
  · rw [hparse, keeping_all, checked, hflaw]

/-- **Written settings are read back.** Valid settings whose numbers fit their words are written, and what is written is
read as the same settings: both tables, every choice, every number and every marker and leader, whatever sign or control
they are. -/
theorem parseIn_writeIn (hf : f.IsFaithful) (s : UserSettings) (hvalid : s.repl.IsValid)
    (hbuffer : s.repl.buffer < 2 ^ 32) (hwindow : s.repl.window < 2 ^ 32) (hsize : s.repl.historySize < 2 ^ 63) :
    ∃ text, s.writeIn f = .ok text ∧ parseIn f text = .ok s :=
  exists_writeIn hf hvalid ⟨hbuffer, hwindow, hvalid.indent_lt, hsize⟩

/-- Settings with a control as marker and a double quote as leader. -/
def quoted : UserSettings := { repl := { buffer := 3, marker := '\x01', leader := '"' }, level := .trace }

def quotedDocument : String :=
  "[repl]\nlang = \"lua\"\nbuffer = 3\nwindow = 0\nindent = 0\nredraw = true\ninspect = false\nhistory_size = 1000\n"
    ++ "no_defaults = false\nmarker = \"\\u0001\"\nprefix = '\"'\n\n[log]\nlevel = \"trace\"\n"

theorem parseIn_writeIn_quoted :
    quoted.writeIn Toml.format = .ok quotedDocument ∧ parseIn Toml.format quotedDocument = .ok quoted := by
  have hdocument : quoted.writeIn Toml.format = .ok quotedDocument := by decide +kernel
  obtain ⟨text, hwrite, hparse⟩ := parseIn_writeIn Toml.isFaithful_format quoted (by decide +kernel) (by decide)
    (by decide) (by decide)
  obtain rfl := Except.ok.inj (hdocument.symm.trans hwrite)
  exact ⟨hdocument, hparse⟩

/-- **Settings that are read.** Whatever the format, a document gives valid settings or none, and their numbers fit
their words. -/
theorem isValid_and_fits_of_parseIn {document : String} {s : UserSettings} (h : parseIn f document = .ok s) :
    s.repl.IsValid ∧ s.repl.Fits := by
  rw [parseIn] at h
  split at h
  · cases h
  next read hread =>
    obtain ⟨entries, -, hentries⟩ := Option.bind_eq_some_iff.1 hread
    obtain ⟨rfl, hvalid⟩ := eq_of_checked h
    exact ⟨hvalid, fits_of_ofEntries? hentries⟩

/-- Settings that were read can be written, and are read again as they were. -/
theorem writeIn_of_parseIn (hf : f.IsFaithful) {document : String} {s : UserSettings}
    (h : parseIn f document = .ok s) : ∃ text, s.writeIn f = .ok text ∧ parseIn f text = .ok s := by
  obtain ⟨hvalid, hfits⟩ := isValid_and_fits_of_parseIn h
  exact exists_writeIn hf hvalid hfits

end UserSettings

end Transcript
