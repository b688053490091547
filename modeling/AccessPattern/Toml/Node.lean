/-!
# TOML documents as trees

A document is a table. Tables remember how they came about, because TOML lets some of them be
extended later and others not: a table opened by its own header, a table that only lies on the way
to another header, a table that a dotted key made, and an inline table, which is complete where it
stands.
-/

namespace AccessPattern.Toml

/-- How a table came about. -/
inductive Origin where
  /-- Opened by its own header. -/
  | header
  /-- Made on the way to the table of a longer header. -/
  | implied
  /-- Made by a dotted key. -/
  | dotted
  /-- Written in braces. -/
  | inline
deriving DecidableEq, Repr

/-- A value or table of a document. -/
inductive Node where
  | text (value : String)
  | integer (value : Int)
  | float
  | boolean (value : Bool)
  | dateTime
  | array (items : List Node)
  /-- A table; its entries stand in the order in which they were made. -/
  | table (origin : Origin) (entries : List (String × Node))
  /-- The tables of headers in double brackets. -/
  | tables (items : List (List (String × Node)))

/-- The entries of a table. -/
abbrev Entries := List (String × Node)

/-- A key and its value, where the key lies below a path of further keys. -/
structure Pair where
  path : List String
  key : String
  value : Node

namespace Entries

/-- The entries with the value of a key exchanged. -/
def exchange (entries : Entries) (key : String) (node : Node) : Entries :=
  entries.map fun (name, old) => if name = key then (name, node) else (name, old)

/-- The entries without a key. -/
def without (entries : Entries) (key : String) : Entries :=
  entries.filter fun (name, _) => name ≠ key

/-- Change the table at the end of a path, making the tables that are missing on the way. A dotted
key may only pass through tables that have no header of their own, a header through all but inline
tables; through tables in double brackets either passes by the last. -/
def updateAt (dotted : Bool) (change : Origin → Entries → Option Entries) :
    List String → Origin → Entries → Option Entries
  | [], origin, entries => change origin entries
  | key :: path, _, entries =>
    match entries.lookup key with
    | none => do
      let origin := if dotted then Origin.dotted else Origin.implied
      let inner ← updateAt dotted change path origin []
      pure (entries ++ [(key, .table origin inner)])
    | some (.table origin inner) =>
      if origin = .inline ∨ (dotted ∧ origin = .header) then none
      else do
        let inner ← updateAt dotted change path origin inner
        pure (exchange entries key (.table origin inner))
    | some (.tables items) =>
      match items.getLast? with
      | none => none
      | some last => do
        let last ← updateAt dotted change path .header last
        pure (exchange entries key (.tables (items.dropLast ++ [last])))
    | some _ => none

/-- Add a pair to a table. The table that takes the value has to be one that the pair's own dotted
key could have made, and must not have the key yet. -/
def addPair (origin : Origin) (entries : Entries) (pair : Pair) : Option Entries :=
  updateAt true
    (fun origin entries =>
      if (origin == .dotted) == pair.path.isEmpty then none
      else if (entries.lookup pair.key).isSome then none
      else some (entries ++ [(pair.key, pair.value)]))
    pair.path origin entries

/-- Add pairs to a table in turn. -/
def addPairs (origin : Origin) (entries : Entries) (pairs : List Pair) : Option Entries :=
  pairs.foldlM (addPair origin) entries

/-- The entries of a table after a header named it and pairs followed: they move to the end. A
table that only lay on the way to others keeps what it has. -/
def openTable (key : String) (pairs : List Pair) (entries : Entries) : Option Entries :=
  match entries.lookup key with
  | none => do
    let inner ← addPairs .header [] pairs
    pure (entries ++ [(key, .table .header inner)])
  | some (.table .implied inner) => do
    let inner ← addPairs .header inner pairs
    pure (without entries key ++ [(key, .table .header inner)])
  | some _ => none

/-- The entries after a header in double brackets named a key and pairs followed. -/
def appendTable (key : String) (pairs : List Pair) (entries : Entries) : Option Entries := do
  let inner ← addPairs .header [] pairs
  match entries.lookup key with
  | none => pure (entries ++ [(key, .tables [inner])])
  | some (.tables items) => pure (exchange entries key (.tables (items ++ [inner])))
  | some _ => none

end Entries

end AccessPattern.Toml
