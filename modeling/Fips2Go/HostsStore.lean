import Fips2Go.TextLines

/-!
# The hosts file

`HostsStore.kt`: the user's mesh names and, in one marked block at the end, the
names synced from another node.  The file is a text, or absent; a write
replaces it as a whole.
-/

namespace Fips2Go.HostsStore

open TextLines

structure Host where
  name : Text
  npub : Text
  deriving DecidableEq

/-- The block synced from `master`. -/
structure Synced where
  master : Text
  hosts : List Host
  deriving DecidableEq

/-- `[02-9ac-hj-np-z]`. -/
def npubChar (char : Char) : Bool :=
  char = '0' || ('2' ≤ char && char ≤ '9') || char = 'a' || ('c' ≤ char && char ≤ 'h') ||
    ('j' ≤ char && char ≤ 'n') || ('p' ≤ char && char ≤ 'z')

def npub1 : Text := "npub1".toList

/-- `npub1[02-9ac-hj-np-z]{58}`. -/
def IsNpub (text : Text) : Prop :=
  text.take 5 = npub1 ∧ (text.drop 5).length = 58 ∧ (text.drop 5).all npubChar = true

instance (text : Text) : Decidable (IsNpub text) :=
  inferInstanceAs (Decidable (_ ∧ _ ∧ _))

def syncBeginPrefix : Text := "# >>> fips-ui sync from ".toList

def syncEndLine : Text := "# <<< fips-ui sync".toList

def managed : Text :=
  ": managed by fips2go, edits here are replaced on the next sync".toList

/-- `\b` behind a word character. -/
def atBoundary (rest : Text) : Bool := !rest.head?.any isWord

/-- `SYNC_BEGIN`: the npub that a match captures. -/
def syncBegin (line : Text) : Option Text :=
  if syncBeginPrefix.isPrefixOf line then
    let rest := line.drop syncBeginPrefix.length
    if IsNpub (rest.take 63) ∧ atBoundary (rest.drop 63) then some (rest.take 63) else none
  else none

/-- `SYNC_END`. -/
def syncEnd (line : Text) : Bool :=
  syncEndLine.isPrefixOf line && atBoundary (line.drop syncEndLine.length)

/-- The file split into the user's lines and the synced block (with its master). -/
structure Split where
  localLines : List Text
  block : Option (List Text)
  master : Option Text

def split (text : Text) : Split :=
  let all := lines text
  let all := if all.getLast? = some [] then all.dropLast else all
  match all.findIdx? fun line => (syncBegin (trim line)).isSome with
  | none => ⟨all, none, none⟩
  | some start =>
      let last :=
        match (all.drop (start + 1)).findIdx? fun line => syncEnd (trim line) with
        | some index => start + 1 + index
        | none => all.length - 1
      let before :=
        if 0 < start ∧ (all[start - 1]?).any isBlank then start - 1 else start
      { localLines := all.take before ++ all.drop (last + 1)
        block := some ((all.drop start).take (last + 1 - start))
        master := (all[start]?).bind fun line => syncBegin (trim line) }

/-- The length in UTF-16, as Kotlin counts. -/
def length16 (text : Text) : Nat :=
  text.foldl (fun size char => size + if char.toNat < 0x10000 then 1 else 2) 0

def nameChar (char : Char) : Bool :=
  ('a' ≤ char && char ≤ 'z') || ('A' ≤ char && char ≤ 'Z') || ('0' ≤ char && char ≤ '9') ||
    char = '-'

def lowercase (text : Text) : Text := text.map Char.toLower

/-- Why `name` cannot be a mesh name, or `none` when it can. -/
def nameError (name : Text) : Option String :=
  if name = [] then some "Enter a name"
  else if 63 < length16 name then some "At most 63 characters"
  else if npub1.isPrefixOf (lowercase name) then some "A name cannot start with npub1"
  else if name.head? = some '-' ∨ name.getLast? = some '-' then
    some "Cannot start or end with a hyphen"
  else if name.any fun char => !nameChar char then
    some "Letters, digits and hyphens only — no dots or spaces"
  else none

/-- The entry on a line, if fips would not skip it. -/
def entry (line : Text) : Option Host :=
  let trimmed := trim line
  if trimmed = [] ∨ trimmed.head? = some '#' then none
  else
    match splitSpaces trimmed with
    | [name, npub] => if nameError name = none then some ⟨lowercase name, npub⟩ else none
    | _ => none

/-- Put a host under its name, behind the others. -/
def put (hosts : List Host) (host : Host) : List Host :=
  (hosts.filter fun other => other.name ≠ host.name) ++ [host]

/-- Entries in file order; of a repeated name the later line wins. -/
def parse (texts : List Text) : List Host :=
  texts.foldl (fun hosts line =>
    match entry line with
    | none => hosts
    | some host => put hosts host) []

/-- The user's own entries. -/
def load (file : Option Text) : List Host :=
  match file with
  | none => []
  | some text => parse (split text).localLines

def effective (file : Option Text) : List Host :=
  match file with
  | none => []
  | some text => parse ((split text).localLines ++ (split text).block.getD [])

def masterAndEffective (file : Option Text) : Option Text × List Host :=
  match file with
  | none => (none, [])
  | some text =>
      ((split text).master, parse ((split text).localLines ++ (split text).block.getD []))

def loadSynced (file : Option Text) : Option Synced :=
  match file with
  | none => none
  | some text =>
      match (split text).master, (split text).block with
      | some master, some block => some ⟨master, parse block⟩
      | _, _ => none

def hostLine (host : Host) : Text := host.name ++ ' ' :: host.npub

/-- What `save` writes: the hosts, and the synced block as it is. -/
def save (file : Option Text) (hosts : List Host) : Text :=
  let block := file.bind fun text => (split text).block
  unlines (hosts.map hostLine ++
    match block with
    | none => []
    | some block => [] :: block)

def beginLine (master : Text) (label : Option Text) : Text :=
  syncBeginPrefix ++ master ++
    (match label with
    | none => []
    | some label => " (".toList ++ label ++ [')']) ++ managed

/-- The content that `saveSynced` writes. -/
def syncedContent (file : Option Text) (master : Text) (label : Option Text)
    (hosts : Option (List Host)) : Text :=
  let localLines := ((file.map fun text => (split text).localLines).getD []).rdropWhile isBlank
  unlines (localLines ++
    match hosts with
    | none => []
    | some hosts => [] :: beginLine master label :: hosts.map hostLine ++ [syncEndLine])

/-- Replace the synced block or remove it; whether the file changed. -/
def saveSynced (file : Option Text) (master : Text) (label : Option Text)
    (hosts : Option (List Host)) : Option Text × Bool :=
  let content := syncedContent file master label hosts
  if content = file.getD [] then (file, false) else (some content, true)

end Fips2Go.HostsStore
