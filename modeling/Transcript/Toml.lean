import Transcript.Word

/-!
TOML values and formats of documents. A table remembers how it came to be, because that decides whether later lines
may add to it: a table under a header of its own is complete, one that only the headers of its children imply can
still get a header, one made by dotted keys takes more dotted keys, and an inline table is closed.

How documents are written and read is left open here. All that settings ask of a format is that it gives back the flat
tables that it writes.
-/
namespace Transcript

/-- How a table came to be. -/
inductive Toml.Origin where
  | header
  | implied
  | dotted
  | closed
  deriving DecidableEq, Repr

/-- A value. A series is an array of tables under headers of their own. -/
inductive Toml where
  | text (s : String)
  | integer (n : Int)
  | float (x : Float)
  | boolean (b : Bool)
  | moment (text : String)
  | array (items : List Toml)
  | table (origin : Toml.Origin) (entries : List (String × Toml))
  | series (tables : List (List (String × Toml)))
  deriving Inhabited

namespace Toml

/-- The entries of a table. -/
abbrev Entries := List (String × Toml)

/-- Tables with their names, as the entries of a document with a header for each. -/
def ofTables (tables : List (String × Entries)) : Entries := tables.map fun t => (t.1, .table .header t.2)

/-! ## Keys without quotes -/

/-- Whether a character may stand in a key without quotes. -/
def isBare (c : Char) : Bool := c.isAlphanum || c == '_' || c == '-'

/-- A key that needs no quotes. -/
structure IsBareKey (key : String) : Prop where
  ne_nil : key.toList ≠ []
  all_isBare : ∀ c ∈ key.toList, isBare c = true

instance (key : String) : Decidable (IsBareKey key) :=
  decidable_of_iff (key.toList ≠ [] ∧ key.toList.all isBare = true)
    ⟨fun h => ⟨h.1, List.all_eq_true.1 h.2⟩, fun h => ⟨h.ne_nil, List.all_eq_true.2 h.all_isBare⟩⟩

/-! ## Formats -/

/-- A value that stands by itself: any text, an integer that is not negative and fits a signed word of 64 bits, or a
truth value. -/
inductive IsScalar : Toml → Prop where
  | text (s : String) : IsScalar (.text s)
  | integer {n : Int} (hnonneg : 0 ≤ n) (hfits : n < Word.bound) : IsScalar (.integer n)
  | boolean (b : Bool) : IsScalar (.boolean b)

/-- Tables of such values. No name of a table and no key in a table needs quotes or is given twice. -/
structure Flat (tables : List (String × Entries)) : Prop where
  isBareKey_name : ∀ t ∈ tables, IsBareKey t.1
  nodup_names : (tables.map Prod.fst).Nodup
  isBareKey_key : ∀ t ∈ tables, ∀ e ∈ t.2, IsBareKey e.1
  nodup_keys : ∀ t ∈ tables, (t.2.map Prod.fst).Nodup
  isScalar : ∀ t ∈ tables, ∀ e ∈ t.2, IsScalar e.2

/-- A writer and a reader of documents. The writer may refuse entries, and the reader a text. -/
structure Format where
  write? : Entries → Option String
  read? : String → Option Entries

/-- Flat tables are written, and what is written of them reads back as the same tables. -/
structure Format.IsFaithful (f : Format) : Prop where
  writes {tables : List (String × Entries)} (h : Flat tables) : ∃ text, f.write? (ofTables tables) = some text
  reads_back {tables : List (String × Entries)} (h : Flat tables) {text : String}
    (hwrite : f.write? (ofTables tables) = some text) : f.read? text = some (ofTables tables)

end Toml

end Transcript
