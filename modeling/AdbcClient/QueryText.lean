import AdbcClient.DelimitedIdentifier

/-!
# The text of the queries

Every query the extension sends for an attached table is put together from names:
`GetDelimitedInternalName` builds the table part (`adbc_catalog.hpp`), the stream
factory puts `SELECT * FROM ` in front of it to bind the table, and
`ApplyProjectionPushdown` puts the requested columns there to scan it
(`adbc_scan.cpp`).  The two delimiting characters come from the `DELIMITER` option
of `ATTACH` (`adbc_storage.cpp`).

A `std::string` is the sequence of its `char`s: in a `String` as well as in a list, here
and in all other modules, a `Char` stands for one byte, and the length of a text is its
number of bytes.  The texts are read back with the grammar of `DelimitedIdentifier`.
The code puts names between the delimiters as they are, so `select_reads_back_iff` has a condition: the closing character may
not occur in a name, nor may it start what the builders write behind one.
-/
namespace AdbcClient
open DelimitedIdentifier

/-- The two characters of the `DELIMITER` option. -/
structure Delimiter where
  opening : Char
  closing : Char
  deriving DecidableEq, Repr

/-- `StringUtil::Lower`, which is also how case-insensitive maps compare keys. -/
def lower (s : String) : List Char := s.toList.map Char.toLower

/-! ## ATTACH -/

/-- What `AdbcAttach` can throw, with its text. -/
inductive AttachError where
  | permission (message : String)
  | binder (message : String)
  | invalidInput (message : String)
  deriving DecidableEq, Repr

/-- The loop of `AdbcAttach` over the options. -/
def attachOptions (delimiter : Delimiter) : List (String × String) → Except AttachError Delimiter
  | [] => .ok delimiter
  | (option, value) :: options =>
    if lower option ≠ "delimiter".toList then
      .error (.binder ("Unrecognized option for ADBC attach: " ++ option))
    else
      match value.toList with
      | [opening, closing] => attachOptions ⟨opening, closing⟩ options
      | _ => .error (.invalidInput ("Invalid value \"" ++ value ++
          "\" for DELIMITER. It must be exactly two characters."))

/-- `AdbcAttach`, up to the catalog it creates: the delimiter of the catalog. -/
def adbcAttach (enableExternalAccess : Bool) (options : List (String × String)) :
    Except AttachError Delimiter :=
  if !enableExternalAccess then
    .error (.permission "Attaching via ADBC is turned off through configuration.")
  else attachOptions ⟨'"', '"'⟩ options

/-- An option that is accepted: `DELIMITER` in any case, with two characters. -/
def GivesDelimiter (option : String × String) (d : Delimiter) : Prop :=
  lower option.1 = "delimiter".toList ∧ option.2.toList = [d.opening, d.closing]

/-- The options are accepted one by one, and the last one gives the delimiter. -/
theorem attachOptions_ok_iff (delimiter : Delimiter) (options : List (String × String))
    (d : Delimiter) : attachOptions delimiter options = .ok d ↔
      (∀ option ∈ options, ∃ given, GivesDelimiter option given) ∧
        (options = [] → d = delimiter) ∧ ∀ last, options.getLast? = some last → GivesDelimiter last d := by
  induction options generalizing delimiter with
  | nil =>
    constructor
    · intro h
      exact ⟨fun _ h => (by cases h), fun _ => (Except.ok.inj h).symm, fun _ h => (by cases h)⟩
    · rintro ⟨-, h, -⟩
      rw [h rfl]
      rfl
  | cons option options ih =>
    obtain ⟨option, value⟩ := option
    rw [attachOptions]
    by_cases hoption : lower option = "delimiter".toList
    · rw [if_neg (not_not_intro hoption)]
      split
      · rename_i opening closing hvalue
        have hgives : GivesDelimiter (option, value) ⟨opening, closing⟩ := ⟨hoption, hvalue⟩
        have hsome : ∃ given, GivesDelimiter (option, value) given := ⟨_, hgives⟩
        rw [ih, List.forall_mem_cons, and_iff_right hsome]
        refine and_congr_right fun _ => ?_
        cases options with
        | nil =>
          simp only [forall_const, List.getLast?_nil, List.getLast?_singleton, Option.some.injEq,
            forall_eq', GivesDelimiter, hoption, hvalue, true_and, List.cons.injEq, and_true]
          constructor
          · rintro ⟨rfl, -⟩
            exact ⟨fun h => (by cases h), rfl, rfl⟩
          · rintro ⟨-, rfl, rfl⟩
            exact ⟨rfl, fun _ h => (by cases h)⟩
        | cons next options => simp [List.getLast?_cons_cons]
      · rename_i hlength
        refine iff_of_false (fun h => (by cases h)) fun h => ?_
        obtain ⟨given, -, hvalue⟩ := h.1 _ List.mem_cons_self
        exact hlength _ _ hvalue
    · rw [if_pos hoption]
      refine iff_of_false (fun h => (by cases h)) fun h => ?_
      obtain ⟨given, hgives, -⟩ := h.1 _ List.mem_cons_self
      exact hoption hgives

/-- **What `ATTACH` accepts**: no option but `DELIMITER`, each with two characters.  The last one
counts, and without any the delimiters are double quotes. -/
theorem adbcAttach_ok_iff (enableExternalAccess : Bool) (options : List (String × String))
    (d : Delimiter) : adbcAttach enableExternalAccess options = .ok d ↔
      enableExternalAccess = true ∧ (∀ option ∈ options, ∃ given, GivesDelimiter option given) ∧
        (options = [] → d = ⟨'"', '"'⟩) ∧
          ∀ last, options.getLast? = some last → GivesDelimiter last d := by
  rw [adbcAttach]
  cases enableExternalAccess with
  | false => exact iff_of_false (fun h => (by cases h)) fun h => (by cases h.1)
  | true =>
    rw [if_neg (by simp), attachOptions_ok_iff]
    exact (and_iff_right rfl).symm

/-! ## Schema and table names -/

/-- `GetExternalSchemaName`. -/
def getExternalSchemaName (noSchemas : Bool) (schema : String) : String :=
  if noSchemas && schema == "" then "main" else schema

/-- `GetInternalSchemaName`. -/
def getInternalSchemaName (noSchemas : Bool) (schema : String) : String :=
  if noSchemas && schema == "main" then "" else schema

/-- `delimiter[0] + name + delimiter[1]`. -/
def quoted (d : Delimiter) (name : String) : String :=
  String.singleton d.opening ++ name ++ String.singleton d.closing

/-- `GetDelimitedInternalName`. -/
def getDelimitedInternalName (d : Delimiter) (noSchemas : Bool) (schema table : String) :
    String :=
  let quotedSchema := quoted d (getInternalSchemaName noSchemas schema)
  let quotedTable := quoted d table
  if noSchemas then quotedTable else quotedSchema ++ "." ++ quotedTable

/-! ## The stream factory -/

/-- What `AdbcArrowStreamFactory` keeps of a query: its text, and what it is built from again for
other columns. -/
structure AdbcArrowStreamFactory where
  queryText : String
  table : String
  delimiter : Option Delimiter
  projectionPushdown : Bool

namespace AdbcArrowStreamFactory

/-- The constructor that `read_adbc` uses, with the text of a query as the user wrote it. -/
def ofQuery (queryText : String) : AdbcArrowStreamFactory := ⟨queryText, "", none, false⟩

/-- The constructor for a table of an attached catalog. -/
def ofTable (table : String) (delimiter : Delimiter) : AdbcArrowStreamFactory :=
  ⟨"SELECT * FROM " ++ table, table, some delimiter, true⟩

/-- The loop over the requested columns, which writes a comma in front of all but the first. -/
def appendColumns (d : Delimiter) : String → Bool → List String → String
  | text, _, [] => text
  | text, first, col :: columns =>
    appendColumns d ((if first then text else text ++ ", ") ++ quoted d col) false columns

/-- `ApplyProjectionPushdown`. -/
def applyProjectionPushdown (factory : AdbcArrowStreamFactory) (columns : List String) :
    AdbcArrowStreamFactory :=
  match factory.projectionPushdown, factory.delimiter with
  | true, some d =>
    let newQueryText :=
      if columns.isEmpty then "SELECT " ++ "1 " else appendColumns d "SELECT " true columns
    { factory with queryText := newQueryText ++ (" FROM " ++ factory.table) }
  | _, _ => factory

end AdbcArrowStreamFactory

/-! ## Reading a query back -/

/-- What a query on a table asks for: its columns, and the table. -/
structure Select where
  columns : List (List Char)
  schema : Option (List Char)
  table : List Char
  deriving DecidableEq, Repr

/-- `"SELECT "`. -/
def selectKeyword : List Char := ['S', 'E', 'L', 'E', 'C', 'T', ' ']

/-- `"FROM "`, the keyword with the blank behind it; it follows a blank. -/
def fromKeyword : List Char := ['F', 'R', 'O', 'M', ' ']

/-- Read a table name: `schema.table`, or the table alone. -/
def readTable (d : Delimiter) (noSchemas : Bool) (text : List Char) :
    Option (Option (List Char) × List Char) :=
  match identifier d.opening d.closing text with
  | none => none
  | some (first, rest) =>
    if noSchemas then
      if rest = [] then some (none, first) else none
    else
      match literal ['.'] rest with
      | none => none
      | some rest' =>
        match identifier d.opening d.closing rest' with
        | some (table, []) => some (some first, table)
        | _ => none

/-- Read the selected columns.  A query without columns selects the constant `1`. -/
def readColumns (d : Delimiter) (text : List Char) : Option (List (List Char) × List Char) :=
  if text.head? = some d.opening then
    identifiers d.opening d.closing [',', ' '] text.length text
  else (literal ['1', ' '] text).map (fun rest => ([], rest))

/-- Read a query: its columns, or the star or the constant in their place, and the table behind
`FROM`. -/
def readSelect (d : Delimiter) (noSchemas : Bool) (text : List Char) : Option Select :=
  match literal selectKeyword text with
  | none => none
  | some text =>
    match readColumns d text with
    | none => none
    | some (columns, text) =>
      match literal (' ' :: fromKeyword) text with
      | none => none
      | some text =>
        (readTable d noSchemas text).map (fun r => ⟨columns, r.1, r.2⟩)

namespace Select

/-- The names in a query, each of which stands between delimiters. -/
def names (x : Select) : List (List Char) := x.columns ++ (x.schema.toList ++ [x.table])

/-- The table part, with names written by `write`. -/
def tableText (write : List Char → List Char) (x : Select) : List Char :=
  match x.schema with
  | none => write x.table
  | some schema => write schema ++ '.' :: write x.table

/-- The column part of the query, with the names written by `write`. -/
def columnText (write : List Char → List Char) (x : Select) : List Char :=
  if x.columns = [] then ['1', ' '] else writeList write [',', ' '] x.columns

/-- The text of the query, with the names written by `write`. -/
def text (write : List Char → List Char) (x : Select) : List Char :=
  selectKeyword ++ (x.columnText write ++ ' ' :: (fromKeyword ++ x.tableText write))

/-- The closing character starts nothing that follows a name, and the constant of
a query without columns does not read as an identifier. -/
structure WellSeparated (d : Delimiter) (x : Select) : Prop where
  dot : x.schema ≠ none → d.closing ≠ '.'
  comma : 2 ≤ x.columns.length → d.closing ≠ ','
  blank : x.columns ≠ [] → d.closing ≠ ' '
  one : x.columns = [] → d.opening ≠ '1'

end Select

theorem readTable_iff (d : Delimiter) (noSchemas : Bool) (text : List Char)
    (schema : Option (List Char)) (table : List Char) :
    readTable d noSchemas text = some (schema, table) ↔
      (schema = none ↔ noSchemas = true) ∧ (schema ≠ none → d.closing ≠ '.') ∧
        text = Select.tableText (delimit d.opening d.closing) ⟨[], schema, table⟩ := by
  constructor
  · intro h
    rw [readTable] at h
    split at h
    · cases h
    · rename_i first rest hfirst
      obtain ⟨htext, hrest⟩ := (identifier_iff ..).mp hfirst
      cases noSchemas with
      | true =>
        simp only [ite_true, Option.ite_none_right_eq_some, Option.some.injEq,
          Prod.mk.injEq] at h
        obtain ⟨rfl, rfl, rfl⟩ := h
        exact ⟨by simp, by simp, by simpa [Select.tableText] using htext⟩
      | false =>
        rw [if_neg (by decide)] at h
        split at h
        · cases h
        · rename_i rest' hdot
          obtain rfl := (literal_iff ..).mp hdot
          split at h
          · rename_i table' htable
            obtain ⟨rfl, rfl⟩ := Prod.mk.inj (Option.some.inj h)
            obtain ⟨hrest', -⟩ := (identifier_iff ..).mp htable
            refine ⟨by simp, fun _ he => hrest (by simp [he]), ?_⟩
            simp [Select.tableText, htext, hrest']
          · cases h
  · rintro ⟨hschema, hdot, rfl⟩
    cases schema with
    | none =>
      have hid := (identifier_iff d.opening d.closing
        (delimit d.opening d.closing table) table []).mpr ⟨by simp, by simp⟩
      simp [readTable, Select.tableText, hid, hschema.mp rfl]
    | some schema =>
      have hns : noSchemas = false := by simpa using mt hschema.mpr
      have hfirst := (identifier_iff d.opening d.closing
        (delimit d.opening d.closing schema ++ '.' :: delimit d.opening d.closing table)
        schema ('.' :: delimit d.opening d.closing table)).mpr
        ⟨rfl, by simpa using (hdot (by simp)).symm⟩
      have htable := (identifier_iff d.opening d.closing
        (delimit d.opening d.closing table) table []).mpr ⟨by simp, by simp⟩
      have hlit := (literal_iff ['.'] ('.' :: delimit d.opening d.closing table)
        (delimit d.opening d.closing table)).mpr rfl
      simp only [readTable, Select.tableText, hfirst, hns, hlit, htable, Bool.false_eq_true,
        if_false]

/-- The columns are read up to a blank. -/
theorem readColumns_iff (d : Delimiter) (text : List Char) (columns : List (List Char))
    (rest : List Char) (schema : Option (List Char)) (table : List Char) :
    readColumns d text = some (columns, ' ' :: rest) ↔
      (2 ≤ columns.length → d.closing ≠ ',') ∧ (columns ≠ [] → d.closing ≠ ' ') ∧
        (columns = [] → d.opening ≠ '1') ∧
        text = Select.columnText (delimit d.opening d.closing) ⟨columns, schema, table⟩ ++
          ' ' :: rest := by
  have hnosep : ¬ [',', ' '] <+: ' ' :: rest := by simp
  rw [readColumns]
  split
  · rename_i hopen
    rw [identifiers_iff]
    constructor
    · rintro ⟨hne, -, htext, hsep, hrest, -⟩
      refine ⟨fun h => (hsep h).symm, fun _ he => hrest (by simp [he]), fun h => absurd h hne, ?_⟩
      rw [Select.columnText, if_neg hne, htext]
    · rintro ⟨hcomma, hblank, hone, rfl⟩
      by_cases hne : columns = []
      · rw [Select.columnText, if_pos hne] at hopen
        exact absurd (by simpa using hopen.symm) (hone hne)
      · rw [Select.columnText, if_neg hne]
        refine ⟨hne, ?_, rfl, fun h => (hcomma h).symm, ?_, hnosep⟩
        · have hlen := length_le_writeList d.opening d.closing [',', ' '] columns
          rw [List.length_append]
          exact Nat.le_trans hlen (Nat.le_add_right _ _)
        · simpa using (hblank hne).symm
  · rename_i hopen
    rw [Option.map_eq_some_iff]
    constructor
    · rintro ⟨rest', hlit, he⟩
      obtain ⟨rfl, rfl⟩ := Prod.mk.inj he
      obtain rfl := (literal_iff ..).mp hlit
      exact ⟨by simp, by simp, fun _ he => hopen (by simp [he]), by simp [Select.columnText]⟩
    · rintro ⟨-, -, -, rfl⟩
      cases columns with
      | nil => exact ⟨' ' :: rest, by simp [Select.columnText, literal], rfl⟩
      | cons c columns =>
        cases columns <;> simp [Select.columnText, writeList, delimit] at hopen

/-- **What reads as a query**: its canonical text and, if the delimiters are
separated from what the builders write, no other. -/
theorem readSelect_iff (d : Delimiter) (noSchemas : Bool) (text : List Char) (x : Select) :
    readSelect d noSchemas text = some x ↔
      (x.schema = none ↔ noSchemas = true) ∧ x.WellSeparated d ∧
        text = x.text (delimit d.opening d.closing) := by
  obtain ⟨columns, schema, table⟩ := x
  constructor
  · intro h
    rw [readSelect] at h
    split at h
    · cases h
    · rename_i afterSelect hselect
      obtain rfl := (literal_iff ..).mp hselect
      split at h
      · cases h
      · rename_i columns' afterColumns hcolumns
        split at h
        · cases h
        · rename_i afterFrom hfrom
          obtain rfl := (literal_iff ..).mp hfrom
          obtain ⟨⟨schema', table'⟩, htable, he⟩ := Option.map_eq_some_iff.mp h
          obtain ⟨rfl, rfl, rfl⟩ := Select.mk.inj he
          obtain ⟨hns, hdot, rfl⟩ := (readTable_iff ..).mp htable
          obtain ⟨hcomma, hblank, hone, rfl⟩ :=
            (readColumns_iff d _ columns' _ schema' table').mp hcolumns
          exact ⟨hns, ⟨hdot, hcomma, hblank, hone⟩, rfl⟩
  · rintro ⟨hns, ⟨hdot, hcomma, hblank, hone⟩, rfl⟩
    have htable := (readTable_iff d noSchemas _ schema table).mpr ⟨hns, hdot, rfl⟩
    have hcolumns := (readColumns_iff d _ columns
      (fromKeyword ++ Select.tableText (delimit d.opening d.closing) ⟨columns, schema, table⟩)
      schema table).mpr ⟨hcomma, hblank, hone, rfl⟩
    rw [readSelect, Select.text, literal_append]
    simp only [hcolumns]
    rw [← List.cons_append, literal_append]
    exact Option.map_eq_some_iff.mpr ⟨(schema, table), htable, rfl⟩

/-! ## What the builders write -/

/-- A name between the delimiters as it is. -/
def rawDelimit (d : Delimiter) (name : List Char) : List Char :=
  d.opening :: (name ++ [d.closing])

@[simp] theorem quoted_toList (d : Delimiter) (name : String) :
    (quoted d name).toList = rawDelimit d name.toList := by
  simp [quoted, rawDelimit]

/-- The names a scan of a table asks for. -/
def request (noSchemas : Bool) (schema table : String) (columns : List String) : Select where
  columns := columns.map String.toList
  schema := if noSchemas then none else some schema.toList
  table := table.toList

theorem getDelimitedInternalName_toList (d : Delimiter) (noSchemas : Bool)
    (schema table : String) (columns : List String) :
    (getDelimitedInternalName d noSchemas schema table).toList =
      (request noSchemas schema table columns).tableText (rawDelimit d) := by
  cases noSchemas with
  | true => simp [getDelimitedInternalName, request, Select.tableText]
  | false =>
    have hdot : ".".toList = ['.'] := by decide
    simp [getDelimitedInternalName, getInternalSchemaName, request, Select.tableText, hdot]

namespace AdbcArrowStreamFactory

/-- The columns after the first each come with a separator. -/
theorem appendColumns_false (d : Delimiter) (text : String) (columns : List String) :
    (appendColumns d text false columns).toList =
      text.toList ++
        (columns.map String.toList).flatMap (fun n => [',', ' '] ++ rawDelimit d n) := by
  have hsep : ", ".toList = [',', ' '] := by decide
  induction columns generalizing text with
  | nil => simp [appendColumns]
  | cons col columns ih =>
    rw [appendColumns, ih]
    simp [hsep]

/-- **The text of a scan**, as a list of characters. -/
theorem queryText_toList (d : Delimiter) (noSchemas : Bool) (schema table : String)
    (columns : List String) :
    ((ofTable (getDelimitedInternalName d noSchemas schema table) d).applyProjectionPushdown
      columns).queryText.toList =
      (request noSchemas schema table columns).text (rawDelimit d) := by
  have htable := getDelimitedInternalName_toList d noSchemas schema table columns
  have hselect : "SELECT ".toList = selectKeyword := by decide
  have hone : "1 ".toList = ['1', ' '] := by decide
  have hfrom : " FROM ".toList = ' ' :: fromKeyword := by decide
  cases columns with
  | nil =>
    show (("SELECT " ++ "1 ") ++
      (" FROM " ++ getDelimitedInternalName d noSchemas schema table)).toList = _
    rw [String.toList_append, String.toList_append, String.toList_append, hselect, hone, hfrom,
      htable, List.append_assoc]
    rfl
  | cons col columns =>
    have hcols : (appendColumns d "SELECT " true (col :: columns)).toList =
        selectKeyword ++ (request noSchemas schema table (col :: columns)).columnText
          (rawDelimit d) := by
      have hne : (request noSchemas schema table (col :: columns)).columns ≠ [] :=
        List.cons_ne_nil _ _
      rw [appendColumns, appendColumns_false, Select.columnText, if_neg hne, if_pos rfl,
        String.toList_append, quoted_toList, List.append_assoc, hselect]
      exact congrArg _ (writeList_flatMap ..).symm
    show (appendColumns d "SELECT " true (col :: columns) ++
      (" FROM " ++ getDelimitedInternalName d noSchemas schema table)).toList = _
    rw [String.toList_append, String.toList_append, hcols, hfrom, htable, List.append_assoc]
    rfl

end AdbcArrowStreamFactory

namespace Select

/-- The characters of a query outside its names. -/
def overhead (x : Select) : Nat :=
  selectKeyword.length + (if x.columns = [] then 2 else (x.columns.length - 1) * 2) +
    (fromKeyword.length + 1) + (if x.schema = none then 0 else 1)

theorem text_length (write : List Char → List Char) (x : Select) :
    (x.text write).length = x.overhead + (x.names.map (fun n => (write n).length)).sum := by
  obtain ⟨columns, schema, table⟩ := x
  simp only [text, columnText, tableText, overhead, names, List.length_append, List.map_append,
    List.sum_append, List.length_cons]
  by_cases hc : columns = [] <;> cases schema <;>
    simp [hc, writeList_length] <;> omega

/-- Delimited names are longer than raw ones by the characters doubled. -/
theorem sum_delimit_length (d : Delimiter) (names : List (List Char)) :
    (names.map (fun n => (delimit d.opening d.closing n).length)).sum =
      (names.map (fun n => (rawDelimit d n).length)).sum +
        (names.map (fun n => n.count d.closing)).sum := by
  induction names with
  | nil => rfl
  | cons n names ih =>
    have hn : (delimit d.opening d.closing n).length =
        (rawDelimit d n).length + n.count d.closing := by
      simp only [delimit, rawDelimit, List.length_cons, List.length_append, escape_length]
      omega
    simp only [List.map_cons, List.sum_cons, ih, hn]
    omega

/-- The raw text is the canonical one exactly if no name has a closing character
to double. -/
theorem text_raw_iff (d : Delimiter) (x : Select) :
    x.text (rawDelimit d) = x.text (delimit d.opening d.closing) ↔
      ∀ n ∈ x.names, d.closing ∉ n := by
  constructor
  · intro h
    have hlen := congrArg List.length h
    rw [text_length, text_length] at hlen
    rw [sum_delimit_length] at hlen
    have hzero : (x.names.map (fun n => n.count d.closing)).sum = 0 := by omega
    rw [List.sum_eq_zero_iff_forall_eq_nat] at hzero
    intro n hn
    exact List.count_eq_zero.mp (hzero _ (List.mem_map.mpr ⟨n, hn, rfl⟩))
  · intro h
    have hw : ∀ n ∈ x.names, rawDelimit d n = delimit d.opening d.closing n := by
      intro n hn
      rw [delimit, escape_of_notMem (h n hn), rawDelimit]
    have hcols : x.columnText (rawDelimit d) = x.columnText (delimit d.opening d.closing) := by
      rw [columnText, columnText, writeList_congr]
      exact fun n hn => hw n (List.mem_append_left _ hn)
    have htable : x.tableText (rawDelimit d) = x.tableText (delimit d.opening d.closing) := by
      have ht := hw x.table (by simp [names])
      cases hs : x.schema with
      | none => simp only [tableText, hs, ht]
      | some schema => simp only [tableText, hs, ht, hw schema (by simp [names, hs])]
    rw [text, text, hcols, htable]

end Select

open AdbcArrowStreamFactory

/-- **When a query reads back as the names it was built from.**  That is, exactly if the closing
character occurs in none of the names, and is not the character that the builders write after one: a
dot after the schema, a comma between columns, a space after the last one.  With no columns, the
constant `1` must not open an identifier. -/
theorem select_reads_back_iff (d : Delimiter) (noSchemas : Bool) (schema table : String)
    (columns : List String) :
    readSelect d noSchemas
      ((ofTable (getDelimitedInternalName d noSchemas schema table) d).applyProjectionPushdown
        columns).queryText.toList = some (request noSchemas schema table columns) ↔
      (∀ name ∈ columns ++ ((if noSchemas then [] else [schema]) ++ [table]),
        d.closing ∉ name.toList) ∧
      (noSchemas = false → d.closing ≠ '.') ∧ (2 ≤ columns.length → d.closing ≠ ',') ∧
      (columns ≠ [] → d.closing ≠ ' ') ∧ (columns = [] → d.opening ≠ '1') := by
  have hnames : (∀ n ∈ (request noSchemas schema table columns).names, d.closing ∉ n) ↔
      ∀ name ∈ columns ++ ((if noSchemas then [] else [schema]) ++ [table]),
        d.closing ∉ name.toList := by
    cases noSchemas <;> simp [Select.names, request, or_imp, forall_and]
  have hschema : ((request noSchemas schema table columns).schema = none ↔ noSchemas = true) := by
    cases noSchemas <;> simp [request]
  have hsep : (request noSchemas schema table columns).WellSeparated d ↔
      (noSchemas = false → d.closing ≠ '.') ∧ (2 ≤ columns.length → d.closing ≠ ',') ∧
        (columns ≠ [] → d.closing ≠ ' ') ∧ (columns = [] → d.opening ≠ '1') := by
    constructor
    · intro h
      refine ⟨fun hns => h.dot (by simp [request, hns]), fun hc => h.comma (by simpa [request]),
        fun hc => h.blank (by simpa [request]), fun hc => h.one (by simp [request, hc])⟩
    · rintro ⟨hdot, hcomma, hblank, hone⟩
      exact ⟨fun hs => hdot (by simpa [request] using hs),
        fun hc => hcomma (by simpa [request] using hc),
        fun hc => hblank (by simpa [request] using hc),
        fun hc => hone (by simpa [request] using hc)⟩
  rw [queryText_toList, readSelect_iff, Select.text_raw_iff, hnames, hsep]
  exact ⟨fun h => ⟨h.2.2, h.2.1⟩, fun h => ⟨hschema, h.2, h.1⟩⟩

/-- A table of `main` named `a"b` cannot be read back from its query. -/
theorem select_misread :
    readSelect ⟨'"', '"'⟩ false
      ((ofTable (getDelimitedInternalName ⟨'"', '"'⟩ false "main" "a\"b")
        ⟨'"', '"'⟩).applyProjectionPushdown ["id"]).queryText.toList ≠
      some (request false "main" "a\"b" ["id"]) := by
  decide

end AdbcClient
