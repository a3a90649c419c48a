import AccessControl.NameMap
import AccessControl.Toml

/-!
# Tables under construction

A document says what is in its tables piece by piece: headers open tables, and dotted keys reach
into them. A table remembers how it came about, for a table is opened by one header only, and dotted
keys reach into no table that a header has opened. A table that a header has only implied can be
adopted by dotted keys, as if they had made it: they may put values into it, and no header opens it
any more. Without adoption they only pass through it. What is written in braces or brackets is
closed.
-/

namespace AccessControl

namespace Toml

/-- How a table came about. -/
inductive Origin where
  /-- A header named a table below it. -/
  | implied
  /-- A dotted key reached into it. -/
  | dotted
  /-- A header opened it. -/
  | opened
  deriving DecidableEq, Repr

/-- A part of a document under construction. -/
inductive Draft where
  /-- A value to which nothing can be added. -/
  | closed (value : Toml)
  /-- A table. -/
  | table (origin : Origin) (entries : List (String × Draft))
  /-- A list of tables, the one opened last at the head. -/
  | tables (last : List (String × Draft)) (before : List (List (String × Draft)))

/-- The entries of a table under construction, in ascending order of their names. -/
abbrev Entries := List (String × Draft)

/-- The entries with those of the table under a path of headers changed. Tables on the way that are
not there yet come about; of a list of tables the last one is meant. -/
def within (change : Entries → Option Entries) : List String → Entries → Option Entries
  | [], entries => change entries
  | key :: path, entries =>
    match NameMap.find key entries with
    | none =>
      (within change path []).map (fun inner => NameMap.place key (.table .implied inner) entries)
    | some (.table origin inner) =>
      (within change path inner).map (fun inner => NameMap.place key (.table origin inner) entries)
    | some (.tables last before) =>
      (within change path last).map (fun last => NameMap.place key (.tables last before) entries)
    | some (.closed _) => none

/-- The entries with a table opened under a key. -/
def openTable (key : String) (entries : Entries) : Option Entries :=
  match NameMap.find key entries with
  | none => some (NameMap.place key (.table .opened []) entries)
  | some (.table .implied inner) => some (NameMap.place key (.table .opened inner) entries)
  | _ => none

/-- The entries with one more table in the list of tables under a key. -/
def addTable (key : String) (entries : Entries) : Option Entries :=
  match NameMap.find key entries with
  | none => some (NameMap.place key (.tables [] []) entries)
  | some (.tables last before) => some (NameMap.place key (.tables [] (last :: before)) entries)
  | _ => none

/-- The entries with a value under a dotted key. The second flag says whether the table takes a
value: the table in which the key stands does, and so does one that came about by dotted keys or, if
the first flag is set, was adopted by them. -/
def assign (adopting : Bool) (value : Toml) (takes : Bool) :
    List String → Entries → Option Entries
  | [], _ => none
  | [key], entries =>
    if takes && (NameMap.find key entries).isNone then
      some (NameMap.place key (.closed value) entries)
    else none
  | key :: path, entries =>
    match NameMap.find key entries with
    | none =>
      (assign adopting value true path []).map
        (fun inner => NameMap.place key (.table .dotted inner) entries)
    | some (.table .opened _) => none
    | some (.table origin inner) =>
      let origin := if adopting then .dotted else origin
      (assign adopting value (origin == .dotted) path inner).map (fun inner =>
        NameMap.place key (.table origin inner) entries)
    | some (.tables last before) =>
      (assign adopting value false path last).map
        (fun last => NameMap.place key (.tables last before) entries)
    | some (.closed _) => none

mutual

/-- A finished part. -/
def Draft.finish : Draft → Toml
  | .closed value => value
  | .table _ entries => .table (finishEntries entries)
  | .tables last before => .array (finishTables before ++ [.table (finishEntries last)])

/-- The entries of a finished table. -/
def finishEntries : List (String × Draft) → List (String × Toml)
  | [] => []
  | (key, draft) :: rest => (key, draft.finish) :: finishEntries rest

/-- Finished tables, the one opened first at the head. -/
def finishTables : List (List (String × Draft)) → List Toml
  | [] => []
  | entries :: rest => finishTables rest ++ [.table (finishEntries entries)]

end

/-- The table of a list of dotted keys with their values. -/
def tableOf? (assignments : List (List String × Toml)) : Option Toml :=
  (assignments.foldlM (fun entries (path, value) => assign false value true path entries) []).map
    (fun entries => .table (finishEntries entries))

end Toml

end AccessControl
