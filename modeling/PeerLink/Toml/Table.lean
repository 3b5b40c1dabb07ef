/-!
Contract: the values of a TOML document and the tables that hold them.

A table remembers how it came to be, because that decides who may still add to it: a header may
define a table that so far was only implied by other headers, dotted keys may add to tables that
dotted keys or headers of others brought about, and nothing may be added to an inline table.

Owns: values, tables, and the three ways to add to them: an assignment, the header of a table and
the header of an element of an array of tables.

Does not own: the writing of any of these.
-/

namespace PeerLink.Toml

/-- How a table came to be. -/
inductive Origin where
  /-- It is the document, has a header, or is an element of an array of tables. -/
  | header
  /-- It is only on the way to a table with a header. -/
  | implied
  /-- It is on the way of a dotted key. -/
  | dotted
  /-- It is written in braces. -/
  | inline
deriving DecidableEq, Repr

/-- A value. Numbers with a point, and dates and times, are known to be well-formed only. -/
inductive Value where
  | integer (number : Int)
  | float
  | boolean (value : Bool)
  | text (text : String)
  | dateTime
  | array (items : List Value)
  | table (origin : Origin) (entries : List (String × Value))
  /-- An array of tables with headers, the last one first. -/
  | tables (elements : List (List (String × Value)))
deriving Repr

/-- The entries of a table, in the order in which they came up. -/
abbrev Entries := List (String × Value)

namespace Entries

def find? (entries : Entries) (key : String) : Option Value := entries.lookup key

/-- Puts a value under a key, in place of the one there or after all others. -/
def put (key : String) (value : Value) : Entries → Entries
  | [] => [(key, value)]
  | entry :: rest => if entry.1 = key then (key, value) :: rest else entry :: put key value rest

/-- Whether a path may lead through a table. Dotted keys only lead through tables that have no header
of their own. -/
def admits (byDots : Bool) : Origin → Bool
  | .header => !byDots
  | .implied | .dotted => true
  | .inline => false

/-- Changes the table at the end of a path. Tables that are missing on the way are made; an array of
tables stands for its last element. There is no answer if the path leads through anything else, or
if the change has none. -/
def changeAt (byDots : Bool) (change : Origin → Entries → Option Entries) :
    List String → Origin → Entries → Option Entries
  | [], origin, entries => change origin entries
  | key :: path, _, entries =>
      match entries.find? key with
      | none => do
          let origin := if byDots then Origin.dotted else .implied
          pure (entries.put key (.table origin (← changeAt byDots change path origin [])))
      | some (.table origin inner) =>
          if admits byDots origin then do
            pure (entries.put key (.table origin (← changeAt byDots change path origin inner)))
          else none
      | some (.tables (last :: others)) => do
          pure (entries.put key (.tables ((← changeAt byDots change path .header last) :: others)))
      | some _ => none

/-- Adds a value under a key that is not there yet. -/
def insertNew (key : String) (value : Value) (entries : Entries) : Option Entries :=
  match entries.find? key with
  | none => some (entries.put key value)
  | some _ => none

/-- Assigns a value to a dotted key. The table that gets it is this one, or one that dotted keys
brought about. -/
def assign (path : List String) (key : String) (value : Value) (origin : Origin)
    (entries : Entries) : Option Entries :=
  changeAt true (fun last inner =>
    if path.isEmpty || last == .dotted then insertNew key value inner else none)
    path origin entries

/-- Assigns a value to a dotted key in the table that a header path leads to. -/
def assignIn (table path : List String) (key : String) (value : Value) (document : Entries) :
    Option Entries :=
  changeAt false (assign path key value) table .header document

/-- The header of a table: the table is new, or was implied so far. -/
def openTable (path : List String) (key : String) (document : Entries) : Option Entries :=
  changeAt false (fun _ entries =>
    match entries.find? key with
    | none => some (entries.put key (.table .header []))
    | some (.table .implied inner) => some (entries.put key (.table .header inner))
    | some _ => none)
    path .header document

/-- The header of an element of an array of tables: the array is new, or gets one element more. -/
def openElement (path : List String) (key : String) (document : Entries) : Option Entries :=
  changeAt false (fun _ entries =>
    match entries.find? key with
    | none => some (entries.put key (.tables [[]]))
    | some (.tables elements) => some (entries.put key (.tables ([] :: elements)))
    | some _ => none)
    path .header document

end Entries

end PeerLink.Toml
