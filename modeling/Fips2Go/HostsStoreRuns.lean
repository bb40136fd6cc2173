import Fips2Go.HostsStore
import Mathlib.Data.List.Nodup

/-!
# Two writers of one hosts file

The editor saves the user's entries and the sync thread its block, each by
splitting the file that it finds and writing it anew.  After any sequence of
their writes the file is the user's entries as last saved and behind them the
block as last synced, so that each reads back what it wrote.
-/

namespace Fips2Go.HostsStore

open TextLines

/-! ### Characters of names and npubs -/

/-- The characters of names and npubs lie between these two. -/
def Visible (char : Char) : Prop := 0x2d ≤ char.toNat ∧ char.toNat ≤ 0x7a

theorem visible_of_between {low high char : Char} (within : (low ≤ char && char ≤ high) = true)
    (above : 0x2d ≤ low.toNat) (below : high.toNat ≤ 0x7a) : Visible char := by
  simp only [Bool.and_eq_true, decide_eq_true_eq, Char.le_def, UInt32.le_iff_toNat_le] at within
  exact ⟨Nat.le_trans above within.1, Nat.le_trans within.2 below⟩

theorem visible_of_nameChar {char : Char} (valid : nameChar char = true) : Visible char := by
  simp only [nameChar, Bool.or_eq_true, decide_eq_true_eq] at valid
  rcases valid with ((lower | upper) | digit) | rfl
  · exact visible_of_between lower (by decide) (by decide)
  · exact visible_of_between upper (by decide) (by decide)
  · exact visible_of_between digit (by decide) (by decide)
  · exact ⟨by decide, by decide⟩

theorem visible_of_npubChar {char : Char} (valid : npubChar char = true) : Visible char := by
  simp only [npubChar, Bool.or_eq_true, decide_eq_true_eq] at valid
  rcases valid with ((((rfl | digit) | rfl) | first) | second) | third
  · exact ⟨by decide, by decide⟩
  · exact visible_of_between digit (by decide) (by decide)
  · exact ⟨by decide, by decide⟩
  · exact visible_of_between first (by decide) (by decide)
  · exact visible_of_between second (by decide) (by decide)
  · exact visible_of_between third (by decide) (by decide)

namespace Visible

variable {char : Char} (visible : Visible char)
include visible

theorem not_whitespace : isWhitespace char = false := by
  obtain ⟨low, high⟩ := visible
  simp only [isWhitespace, decide_eq_false_iff_not]
  omega

theorem not_space : isSpace char = false := by
  obtain ⟨low, high⟩ := visible
  simp only [isSpace, decide_eq_false_iff_not]
  omega

theorem not_break : isBreak char = false := by
  obtain ⟨low, high⟩ := visible
  simp only [isBreak, Bool.or_eq_false_iff, decide_eq_false_iff_not]
  constructor <;> rintro rfl <;> exact absurd low (by decide)

theorem ne_hash : char ≠ '#' := by
  rintro rfl
  exact absurd visible.1 (by decide)

end Visible

theorem visible_of_nameError {name : Text} (valid : nameError name = none) :
    name ≠ [] ∧ ∀ char ∈ name, Visible char := by
  unfold nameError at valid
  split at valid
  · cases valid
  next nonempty =>
    split at valid
    · cases valid
    · split at valid
      · cases valid
      · split at valid
        · cases valid
        · split at valid
          · cases valid
          next clean =>
            refine ⟨nonempty, fun char member => visible_of_nameChar ?_⟩
            by_contra bad
            exact clean (List.any_eq_true.mpr ⟨char, member, by simpa using bad⟩)

theorem visible_of_isNpub {npub : Text} (valid : IsNpub npub) :
    npub.length = 63 ∧ ∀ char ∈ npub, Visible char := by
  obtain ⟨front, length, rest⟩ := valid
  have whole := List.take_append_drop 5 npub
  rw [front] at whole
  constructor
  · rw [← whole, List.length_append, length]
    rfl
  · intro char member
    rw [← whole, List.mem_append] at member
    rcases member with early | late
    · have visible : npub1.all (fun char => 0x2d ≤ char.toNat && char.toNat ≤ 0x7a) = true := by
        decide
      have bounds := List.all_eq_true.mp visible char early
      rw [Bool.and_eq_true, decide_eq_true_eq, decide_eq_true_eq] at bounds
      exact bounds
    · exact visible_of_npubChar (List.all_eq_true.mp rest char late)

/-! ### Lines that the store writes -/

structure Host.Valid (host : Host) : Prop where
  name : nameError host.name = none
  lower : lowercase host.name = host.name
  npub : IsNpub host.npub

namespace Host.Valid

variable {host : Host} (valid : host.Valid)
include valid

theorem npub_ne_nil : host.npub ≠ [] := by
  rintro empty
  have length := (visible_of_isNpub valid.npub).1
  rw [empty] at length
  cases length

theorem head_hostLine : ∃ char, (hostLine host).head? = some char ∧ Visible char := by
  obtain ⟨nonempty, visible⟩ := visible_of_nameError valid.name
  unfold hostLine
  cases name : host.name with
  | nil => exact absurd name nonempty
  | cons first rest =>
      rw [name] at visible
      exact ⟨first, rfl, visible first List.mem_cons_self⟩

theorem trim_hostLine : trim (hostLine host) = hostLine host := by
  apply trim_eq_self
  · intro char first
    obtain ⟨own, head, visible⟩ := valid.head_hostLine
    rw [head, Option.some.injEq] at first
    exact first ▸ visible.not_whitespace
  · intro char last
    have ends : (hostLine host).getLast? = host.npub.getLast? := by
      unfold hostLine
      rw [List.getLast?_append_of_ne_nil _ (List.cons_ne_nil _ _),
        List.getLast?_cons_of_ne_nil valid.npub_ne_nil]
    rw [ends] at last
    exact ((visible_of_isNpub valid.npub).2 char (List.mem_of_getLast? last)).not_whitespace

theorem unbroken_hostLine : Unbroken (hostLine host) := by
  intro char member
  rw [hostLine, List.mem_append, List.mem_cons] at member
  rcases member with inName | rfl | inNpub
  · exact ((visible_of_nameError valid.name).2 char inName).not_break
  · decide
  · exact ((visible_of_isNpub valid.npub).2 char inNpub).not_break

theorem entry_hostLine : entry (hostLine host) = some host := by
  obtain ⟨first, head, visible⟩ := valid.head_hostLine
  have fields := splitSpaces_pair
    (fun char member => ((visible_of_nameError valid.name).2 char member).not_space)
    (fun char member => ((visible_of_isNpub valid.npub).2 char member).not_space)
    valid.npub_ne_nil
  have plain : ¬ (hostLine host = [] ∨ (hostLine host).head? = some '#') := by
    rintro (empty | hash)
    · rw [empty] at head
      cases head
    · rw [head, Option.some.injEq] at hash
      exact visible.ne_hash hash
  have fields : splitSpaces (hostLine host) = [host.name, host.npub] := fields
  simp only [entry, valid.trim_hostLine, if_neg plain, fields, if_pos valid.name, valid.lower]

theorem not_blank : isBlank (hostLine host) = false := by
  obtain ⟨first, head, visible⟩ := valid.head_hostLine
  cases line : hostLine host with
  | nil =>
      rw [line] at head
      cases head
  | cons char rest =>
      rw [line, List.head?_cons, Option.some.injEq] at head
      simp [isBlank, head, visible.not_whitespace]

/-- Neither mark of a block begins like a host. -/
theorem no_mark {mark : Text} (hash : mark.head? = some '#') :
    mark.isPrefixOf (hostLine host) = false := by
  obtain ⟨first, head, visible⟩ := valid.head_hostLine
  cases mark with
  | nil => cases hash
  | cons char mark =>
      rw [List.head?_cons, Option.some.injEq] at hash
      cases line : hostLine host with
      | nil => rfl
      | cons own rest =>
          rw [line, List.head?_cons, Option.some.injEq] at head
          have distinct : char ≠ own := by
            rw [hash, head]
            exact visible.ne_hash.symm
          rw [List.isPrefixOf_cons_cons, beq_eq_false_iff_ne.mpr distinct, Bool.false_and]

theorem no_begin : syncBegin (trim (hostLine host)) = none := by
  rw [valid.trim_hostLine, syncBegin, valid.no_mark (by decide)]
  rfl

theorem no_end : syncEnd (trim (hostLine host)) = false := by
  rw [valid.trim_hostLine, syncEnd, valid.no_mark (by decide)]
  rfl

end Host.Valid

/-- A block as it was written. -/
structure Block where
  master : Text
  label : Option Text
  hosts : List Host

def Block.lines (block : Block) : List Text :=
  beginLine block.master block.label :: block.hosts.map hostLine ++ [syncEndLine]

/-- Entries with distinct names that pass the checks. -/
structure Entries (hosts : List Host) : Prop where
  valid : ∀ host ∈ hosts, host.Valid
  distinct : (hosts.map Host.name).Nodup

structure Block.Valid (block : Block) : Prop where
  master : IsNpub block.master
  label : ∀ label, block.label = some label → nameError label = none
  hosts : Entries block.hosts

/-- What follows the npub on the first line of a block. -/
def afterMaster (label : Option Text) : Text :=
  (match label with
  | none => []
  | some label => " (".toList ++ label ++ [')']) ++ managed

theorem beginLine_eq (master : Text) (label : Option Text) :
    beginLine master label = syncBeginPrefix ++ (master ++ afterMaster label) := by
  cases label <;> simp [beginLine, afterMaster]

theorem trim_beginLine (master : Text) (label : Option Text) :
    trim (beginLine master label) = beginLine master label := by
  apply trim_eq_self
  · intro char first
    have head : (beginLine master label).head? = some '#' := rfl
    rw [head, Option.some.injEq] at first
    exact first ▸ by decide
  · intro char last
    have ends : (beginLine master label).getLast? = some 'c' := by
      unfold beginLine
      rw [List.getLast?_append_of_ne_nil _ (by decide)]
      decide
    rw [ends, Option.some.injEq] at last
    exact last ▸ by decide

theorem entry_beginLine (master : Text) (label : Option Text) :
    entry (beginLine master label) = none := by
  have commented : trim (beginLine master label) = [] ∨
      (trim (beginLine master label)).head? = some '#' := by
    rw [trim_beginLine]
    exact .inr rfl
  simp only [entry, if_pos commented]

theorem syncEndLine_spec : trim syncEndLine = syncEndLine ∧ Unbroken syncEndLine ∧
    syncBegin syncEndLine = none ∧ syncEnd syncEndLine = true ∧ entry syncEndLine = none ∧
    isBlank syncEndLine = false := by
  have unbroken : Unbroken syncEndLine := unbroken_of_any (by decide +kernel)
  have recognised : trim syncEndLine = syncEndLine ∧ syncBegin syncEndLine = none ∧
      syncEnd syncEndLine = true ∧ entry syncEndLine = none ∧ isBlank syncEndLine = false := by
    decide +kernel
  exact ⟨recognised.1, unbroken, recognised.2⟩

theorem blank_spec : syncBegin (trim []) = none ∧ entry [] = none ∧ isBlank [] = true := by
  decide

namespace Block.Valid

variable {block : Block} (valid : block.Valid)
include valid

theorem unbroken_beginLine : Unbroken (beginLine block.master block.label) := by
  have first : Unbroken syncBeginPrefix := unbroken_of_any (by decide +kernel)
  have last : Unbroken managed := unbroken_of_any (by decide +kernel)
  intro char member
  simp only [beginLine, List.mem_append] at member
  rcases member with ((start | npub) | label) | ending
  · exact first char start
  · exact ((visible_of_isNpub valid.master).2 char npub).not_break
  · cases own : block.label with
    | none =>
        rw [own] at label
        cases label
    | some name =>
        rw [own] at label
        simp only [List.mem_append] at label
        rcases label with (bracket | inName) | bracket
        · have plain : Unbroken " (".toList := unbroken_of_any (by decide)
          exact plain char bracket
        · exact ((visible_of_nameError (valid.label name own)).2 char inName).not_break
        · rw [List.mem_singleton.mp bracket]
          decide
  · exact last char ending

theorem begin_beginLine :
    syncBegin (trim (beginLine block.master block.label)) = some block.master := by
  have size := (visible_of_isNpub valid.master).1
  have marked : syncBeginPrefix.isPrefixOf (syncBeginPrefix ++
      (block.master ++ afterMaster block.label)) = true :=
    List.isPrefixOf_iff_prefix.mpr (List.prefix_append _ _)
  have boundary : atBoundary (afterMaster block.label) = true := by
    cases own : block.label with
    | none => decide
    | some label => rfl
  rw [trim_beginLine, beginLine_eq, syncBegin, if_pos marked]
  simp only [List.drop_left, ← size, List.take_left, boundary, and_true, if_pos valid.master]

end Block.Valid

/-! ### Splitting what was written -/

section Split

variable {front texts : List Text}

theorem split_of_no_begin (unbroken : ∀ line ∈ texts, Unbroken line)
    (unmarked : ∀ line ∈ texts, syncBegin (trim line) = none) :
    split (unlines texts) = ⟨texts, none, none⟩ := by
  have found : texts.findIdx? (fun line => (syncBegin (trim line)).isSome) = none := by
    rw [List.findIdx?_eq_none_iff]
    intro line member
    rw [unmarked line member]
    rfl
  have ended : (texts ++ [[]]).getLast? = some [] := by simp
  simp only [split, lines_unlines unbroken, if_pos ended, List.dropLast_concat, found]

theorem split_block {first : Text} {inner : List Text} {master : Text}
    (unbroken : ∀ line ∈ front ++ [] :: (first :: inner ++ [syncEndLine]), Unbroken line)
    (unmarked : ∀ line ∈ front, syncBegin (trim line) = none)
    (begins : syncBegin (trim first) = some master)
    (unended : ∀ line ∈ inner, syncEnd (trim line) = false) :
    split (unlines (front ++ [] :: (first :: inner ++ [syncEndLine]))) =
      ⟨front, some (first :: inner ++ [syncEndLine]), some master⟩ := by
  obtain ⟨all, whole⟩ : ∃ all, all = front ++ [] :: (first :: inner ++ [syncEndLine]) :=
    ⟨_, rfl⟩
  have start : all.findIdx? (fun line => (syncBegin (trim line)).isSome) =
      some (front.length + 1) := by
    have none : front.findIdx? (fun line => (syncBegin (trim line)).isSome) = none := by
      rw [List.findIdx?_eq_none_iff]
      intro line member
      rw [unmarked line member]
      rfl
    rw [whole, List.findIdx?_append, none, List.findIdx?_cons, blank_spec.1, List.cons_append,
      List.findIdx?_cons, begins]
    simp [Nat.add_comm]
  have afterStart : all.drop (front.length + 1 + 1) = inner ++ [syncEndLine] := by
    rw [whole, Nat.add_assoc, ← List.drop_drop, List.drop_left]
    rfl
  have stop : (inner ++ [syncEndLine]).findIdx? (fun line => syncEnd (trim line)) =
      some inner.length := by
    have none : inner.findIdx? (fun line => syncEnd (trim line)) = none := by
      rw [List.findIdx?_eq_none_iff]
      exact unended
    rw [List.findIdx?_append, none, List.findIdx?_cons, syncEndLine_spec.1,
      syncEndLine_spec.2.2.2.1]
    simp
  have blank : all[front.length]? = some [] := by simp [whole]
  have begin : all[front.length + 1]? = some first := by
    rw [whole, List.getElem?_append_right (by omega)]
    simp
  have block : all.drop (front.length + 1) = first :: inner ++ [syncEndLine] := by
    rw [whole, ← List.drop_drop, List.drop_left]
    rfl
  have length : all.length = front.length + 1 + 1 + inner.length + 1 := by
    rw [whole]
    simp
    omega
  have size : front.length + 1 + 1 + inner.length + 1 - (front.length + 1) =
      (first :: inner ++ [syncEndLine]).length := by
    simp
    omega
  have nothing : all.drop (front.length + 1 + 1 + inner.length + 1) = [] :=
    List.drop_eq_nil_of_le (Nat.le_of_eq length)
  have ended : (all ++ [[]]).getLast? = some [] := by simp
  rw [← whole] at unbroken ⊢
  simp only [split, lines_unlines unbroken, if_pos ended, List.dropLast_concat, start, afterStart,
    stop, Nat.add_sub_cancel, blank, Option.any_some, blank_spec.2.2, and_true,
    if_pos (Nat.succ_pos _), block, size, List.take_length, nothing, begin, List.append_nil,
    Option.bind_some, begins]
  rw [whole, List.take_left]

end Split

/-! ### Parsing what was written -/

theorem parse_eq_foldl (texts : List Text) :
    parse texts = (texts.filterMap entry).foldl put [] := by
  rw [List.foldl_filterMap]
  unfold parse
  congr 1
  funext hosts line
  cases entry line <;> rfl

/-- Hosts of distinct names stand in their order. -/
theorem foldl_put {before hosts : List Host} (distinct : ((before ++ hosts).map Host.name).Nodup) :
    hosts.foldl put before = before ++ hosts := by
  induction hosts generalizing before with
  | nil => simp
  | cons host hosts ih =>
      have kept : before.filter (fun other => other.name ≠ host.name) = before := by
        rw [List.filter_eq_self]
        intro other member
        rw [List.map_append, List.map_cons, List.nodup_append] at distinct
        have apart := distinct.2.2 other.name (List.mem_map_of_mem member) host.name
          List.mem_cons_self
        simpa using apart
      have joined : before ++ [host] ++ hosts = before ++ host :: hosts := by simp
      rw [List.foldl_cons, put, kept, ih (by rwa [joined]), joined]

/-- The last entry of a name is what a table of hosts has for it. -/
theorem find?_foldl_put (hosts : List Host) (name : Text) :
    (hosts.foldl put []).find? (fun host => host.name = name) =
      hosts.reverse.find? fun host => host.name = name := by
  induction hosts using List.reverseRecOn with
  | nil => rfl
  | append_singleton hosts host ih =>
      rw [List.foldl_append, List.foldl_cons, List.foldl_nil, put, List.find?_append,
        List.reverse_append, List.reverse_singleton, List.singleton_append]
      by_cases same : host.name = name
      · have gone : (List.filter (fun other => decide (other.name ≠ host.name))
            (hosts.foldl put [])).find? (fun other => other.name = name) = none := by
          rw [List.find?_eq_none]
          intro other member
          have distinct := (List.mem_filter.mp member).2
          simpa [same] using distinct
        rw [gone]
        simp [same]
      · have kept : (List.filter (fun other => decide (other.name ≠ host.name))
            (hosts.foldl put [])).find? (fun other => other.name = name) =
            (hosts.foldl put []).find? (fun other => other.name = name) := by
          rw [List.find?_filter]
          congr 1
          funext other
          by_cases own : other.name = name
          · simp [own, Ne.symm same]
          · simp [own]
        rw [kept, ih]
        simp [same]

theorem filterMap_hostLine {hosts : List Host} (valid : ∀ host ∈ hosts, host.Valid) :
    (hosts.map hostLine).filterMap entry = hosts := by
  induction hosts with
  | nil => rfl
  | cons host hosts ih =>
      rw [List.map_cons, List.filterMap_cons_some (valid host List.mem_cons_self).entry_hostLine,
        ih fun other member => valid other (List.mem_cons_of_mem host member)]

theorem Entries.parse {hosts : List Host} (entries : Entries hosts) :
    parse (hosts.map hostLine) = hosts := by
  rw [parse_eq_foldl, filterMap_hostLine entries.valid]
  exact foldl_put (by simpa using entries.distinct)

theorem Block.Valid.filterMap_lines {block : Block} (valid : block.Valid) :
    block.lines.filterMap entry = block.hosts := by
  have ended : [syncEndLine].filterMap entry = [] := by
    rw [List.filterMap_cons_none syncEndLine_spec.2.2.2.2.1]
    rfl
  rw [Block.lines, List.cons_append, List.filterMap_cons_none (entry_beginLine _ _),
    List.filterMap_append, filterMap_hostLine valid.hosts.valid, ended, List.append_nil]

theorem Block.Valid.parse {block : Block} (valid : block.Valid) :
    parse block.lines = block.hosts := by
  rw [parse_eq_foldl, valid.filterMap_lines]
  exact foldl_put (by simpa using valid.hosts.distinct)

/-! ### The layout of the file -/

/-- The lines of a file with the user's entries and a block. -/
def fileLines (own : List Host) (block : Option Block) : List Text :=
  own.map hostLine ++
    match block with
    | none => []
    | some block => [] :: block.lines

/-- An absent file is laid out like an empty one. -/
structure Layout (file : Option Text) (own : List Host) (block : Option Block) : Prop where
  entries : Entries own
  valid : ∀ written, block = some written → written.Valid
  content : file.getD [] = unlines (fileLines own block)

theorem unbroken_hostLines {hosts : List Host} (valid : ∀ host ∈ hosts, host.Valid) :
    ∀ line ∈ hosts.map hostLine, Unbroken line := by
  intro line member
  obtain ⟨host, inHosts, rfl⟩ := List.mem_map.mp member
  exact (valid host inHosts).unbroken_hostLine

theorem no_begin_hostLines {hosts : List Host} (valid : ∀ host ∈ hosts, host.Valid) :
    ∀ line ∈ hosts.map hostLine, syncBegin (trim line) = none := by
  intro line member
  obtain ⟨host, inHosts, rfl⟩ := List.mem_map.mp member
  exact (valid host inHosts).no_begin

theorem no_end_hostLines {hosts : List Host} (valid : ∀ host ∈ hosts, host.Valid) :
    ∀ line ∈ hosts.map hostLine, syncEnd (trim line) = false := by
  intro line member
  obtain ⟨host, inHosts, rfl⟩ := List.mem_map.mp member
  exact (valid host inHosts).no_end

theorem split_getD (file : Option Text) :
    split (file.getD []) = match file with
      | none => ⟨[], none, none⟩
      | some text => split text := by
  cases file with
  | none => exact @split_of_no_begin [] (by simp) (by simp)
  | some text => rfl

namespace Layout

variable {file : Option Text} {own : List Host} {block : Option Block}
  (layout : Layout file own block)
include layout

theorem unbroken : ∀ line ∈ fileLines own block, Unbroken line := by
  intro line member
  unfold fileLines at member
  rw [List.mem_append] at member
  rcases member with inOwn | inBlock
  · exact unbroken_hostLines layout.entries.valid line inOwn
  · cases written : block with
    | none =>
        rw [written] at inBlock
        cases inBlock
    | some block =>
        have valid := layout.valid block written
        rw [written] at inBlock
        simp only [Block.lines, List.mem_cons, List.mem_append, List.cons_append,
          List.not_mem_nil, or_false] at inBlock
        rcases inBlock with rfl | rfl | inHosts | rfl
        · exact fun char member => absurd member List.not_mem_nil
        · exact valid.unbroken_beginLine
        · exact unbroken_hostLines valid.hosts.valid line inHosts
        · exact syncEndLine_spec.2.1

theorem split_eq : split (file.getD []) =
    ⟨own.map hostLine, block.map Block.lines, block.map Block.master⟩ := by
  have unbroken := layout.unbroken
  rw [layout.content]
  cases written : block with
  | none =>
      rw [written, fileLines, List.append_nil] at unbroken
      rw [fileLines, List.append_nil]
      exact split_of_no_begin unbroken (no_begin_hostLines layout.entries.valid)
  | some block =>
      have valid := layout.valid block written
      rw [written] at unbroken
      exact split_block unbroken (no_begin_hostLines layout.entries.valid) valid.begin_beginLine
        (no_end_hostLines valid.hosts.valid)

theorem load_eq : load file = own := by
  have parsed : load file = parse (split (file.getD [])).localLines := by
    rw [split_getD]
    cases file <;> rfl
  rw [parsed, layout.split_eq]
  exact layout.entries.parse

theorem loadSynced_eq :
    loadSynced file = block.map fun block => ⟨block.master, block.hosts⟩ := by
  have parsed : loadSynced file = (split (file.getD [])).master.bind fun master =>
      (split (file.getD [])).block.map fun block => ⟨master, parse block⟩ := by
    rw [split_getD]
    cases file with
    | none => rfl
    | some text =>
        unfold loadSynced
        simp only
        cases (split text).master with
        | none => rfl
        | some master => cases (split text).block <;> rfl
  rw [parsed, layout.split_eq]
  cases written : block with
  | none => rfl
  | some block =>
      simp only [Option.map_some, Option.bind_some]
      rw [(layout.valid block written).parse]

theorem effective_eq : effective file = parse (fileLines own block) := by
  have parsed : effective file =
      parse ((split (file.getD [])).localLines ++ (split (file.getD [])).block.getD []) := by
    rw [split_getD]
    cases file <;> rfl
  unfold fileLines
  rw [parsed, layout.split_eq, parse_eq_foldl, parse_eq_foldl]
  cases block with
  | none => rfl
  | some block =>
      simp only [Option.map_some, Option.getD_some, List.filterMap_append,
        List.filterMap_cons_none blank_spec.2.1]

/-- Both from one read. -/
theorem masterAndEffective_eq :
    masterAndEffective file = (block.map Block.master, effective file) := by
  have parsed : masterAndEffective file = ((split (file.getD [])).master, effective file) := by
    rw [split_getD]
    cases file <;> rfl
  rw [parsed, layout.split_eq]

/-- The editor's write. -/
theorem save {hosts : List Host} (entries : Entries hosts) :
    Layout (some (HostsStore.save file hosts)) hosts block := by
  have kept : (file.bind fun text => (split text).block) = (split (file.getD [])).block := by
    rw [split_getD]
    cases file <;> rfl
  refine ⟨entries, layout.valid, ?_⟩
  simp only [Option.getD_some, HostsStore.save, kept, layout.split_eq, fileLines]
  cases block <;> rfl

theorem syncedContent_eq (master : Text) (label : Option Text) (hosts : Option (List Host)) :
    syncedContent file master label hosts =
      unlines (fileLines own (hosts.map fun hosts => ⟨master, label, hosts⟩)) := by
  have kept : ((file.map fun text => (split text).localLines).getD []) =
      (split (file.getD [])).localLines := by
    rw [split_getD]
    cases file <;> rfl
  have solid : (own.map hostLine).rdropWhile isBlank = own.map hostLine := by
    rw [List.rdropWhile_eq_self_iff]
    intro nonempty blank
    obtain ⟨host, inOwn, line⟩ := List.mem_map.mp (List.getLast_mem nonempty)
    rw [← line, (layout.entries.valid host inOwn).not_blank] at blank
    cases blank
  unfold syncedContent fileLines
  rw [kept, layout.split_eq, solid]
  cases hosts <;> rfl

/-- The sync thread's write, also where it finds nothing to change. -/
theorem saveSynced {master : Text} {label : Option Text} {hosts : Option (List Host)}
    (valid : ∀ written, hosts = some written → Block.Valid ⟨master, label, written⟩) :
    Layout (HostsStore.saveSynced file master label hosts).1 own
      (hosts.map fun hosts => ⟨master, label, hosts⟩) := by
  have content := layout.syncedContent_eq master label hosts
  refine ⟨layout.entries, ?_, ?_⟩
  · intro block written
    obtain ⟨own, given, rfl⟩ := Option.map_eq_some_iff.mp written
    exact valid own given
  · rw [← content, HostsStore.saveSynced]
    split
    next same => exact same.symm
    next => rfl

end Layout

/-! ### Runs -/

/-- One call of a writer; the sync thread's with no hosts removes the block. -/
inductive Op where
  | save (hosts : { hosts : List Host // Entries hosts })
  | saveSynced (master : { npub : Text // IsNpub npub })
      (label : Option { name : Text // nameError name = none })
      (hosts : Option { hosts : List Host // Entries hosts })

def apply (file : Option Text) : Op → Option Text
  | .save hosts => some (save file hosts)
  | .saveSynced master label hosts =>
      (saveSynced file master (label.map Subtype.val) (hosts.map Subtype.val)).1

/-- The file after these calls, beginning with none. -/
def run (ops : List Op) : Option Text := ops.foldl apply none

def Op.saved? : Op → Option (List Host)
  | .save hosts => some hosts
  | .saveSynced .. => none

def Op.synced? : Op → Option (Option Block)
  | .save _ => none
  | .saveSynced master label hosts =>
      some ((hosts.map Subtype.val).map fun hosts => ⟨master, label.map Subtype.val, hosts⟩)

/-- What the editor saved last. -/
def lastSaved (ops : List Op) : List Host := (ops.reverse.findSome? Op.saved?).getD []

/-- What the sync thread saved last, if that was a block. -/
def lastSynced (ops : List Op) : Option Block := (ops.reverse.findSome? Op.synced?).getD none

theorem lastSaved_concat (ops : List Op) (op : Op) :
    lastSaved (ops ++ [op]) = op.saved?.getD (lastSaved ops) := by
  unfold lastSaved
  rw [List.reverse_append, List.reverse_singleton, List.singleton_append, List.findSome?_cons]
  cases op.saved? <;> rfl

theorem lastSynced_concat (ops : List Op) (op : Op) :
    lastSynced (ops ++ [op]) = op.synced?.getD (lastSynced ops) := by
  unfold lastSynced
  rw [List.reverse_append, List.reverse_singleton, List.singleton_append, List.findSome?_cons]
  cases op.synced? <;> rfl

theorem valid_block {master : { npub : Text // IsNpub npub }}
    {label : Option { name : Text // nameError name = none }}
    {hosts : Option { hosts : List Host // Entries hosts }} {written : List Host}
    (given : hosts.map Subtype.val = some written) :
    Block.Valid ⟨master, label.map Subtype.val, written⟩ := by
  obtain ⟨own, _, rfl⟩ := Option.map_eq_some_iff.mp given
  refine ⟨master.property, ?_, own.property⟩
  intro name named
  obtain ⟨valid, _, rfl⟩ := Option.map_eq_some_iff.mp named
  exact valid.property

theorem layout_run (ops : List Op) : Layout (run ops) (lastSaved ops) (lastSynced ops) := by
  induction ops using List.reverseRecOn with
  | nil =>
      refine ⟨⟨by simp [lastSaved], by simp [lastSaved]⟩, ?_, rfl⟩
      intro written absent
      cases absent
  | append_singleton ops op layout =>
      have next : run (ops ++ [op]) = apply (run ops) op := by
        simp only [run, List.foldl_append, List.foldl_cons, List.foldl_nil]
      rw [next, lastSaved_concat, lastSynced_concat]
      cases op with
      | save hosts => exact layout.save hosts.property
      | saveSynced master label hosts =>
          exact layout.saveSynced fun written given => valid_block given

/-- What the file holds, and what the store reads from it. -/
structure Consistent (file : Option Text) (own : List Host) (block : Option Block) : Prop where
  load : load file = own
  loadSynced : loadSynced file = block.map fun block => ⟨block.master, block.hosts⟩
  oneBlock : (lines (file.getD [])).filterMap (fun line => syncBegin (trim line)) =
    (block.map Block.master).toList
  atEnd : ∀ written, block = some written →
    ∃ front, lines (file.getD []) = front ++ written.lines ++ [[]]
  whole : effective file = parse (lines (file.getD []))
  lastWins : ∀ name, (effective file).find? (fun host => host.name = name) =
    ((lines (file.getD [])).filterMap entry).reverse.find? fun host => host.name = name
  overrides : ∀ name, (effective file).find? (fun host => host.name = name) =
    ((block.map Block.hosts).getD [] |>.find? fun host => host.name = name).or
      (own.find? fun host => host.name = name)
  changed : ∀ master label hosts, (saveSynced file master label hosts).2 = true ↔
    (saveSynced file master label hosts).1.getD [] ≠ file.getD []

/-- Distinct names are found from either end. -/
theorem find?_reverse {hosts : List Host} (distinct : (hosts.map Host.name).Nodup) (name : Text) :
    hosts.reverse.find? (fun host => host.name = name) =
      hosts.find? fun host => host.name = name := by
  rw [← find?_foldl_put, foldl_put (by simpa using distinct), List.nil_append]

theorem saveSynced_changed (file : Option Text) (master : Text) (label : Option Text)
    (hosts : Option (List Host)) : (saveSynced file master label hosts).2 = true ↔
      (saveSynced file master label hosts).1.getD [] ≠ file.getD [] := by
  unfold saveSynced
  by_cases same : syncedContent file master label hosts = file.getD []
  · simp [same]
  · simp [same]

theorem Layout.filterMap_lines {file : Option Text} {own : List Host} {block : Option Block}
    (layout : Layout file own block) :
    (lines (file.getD [])).filterMap entry = own ++ (block.map Block.hosts).getD [] := by
  rw [layout.content, lines_unlines layout.unbroken, List.filterMap_append,
    List.filterMap_cons_none blank_spec.2.1, List.filterMap_nil, List.append_nil]
  unfold fileLines
  rw [List.filterMap_append, filterMap_hostLine layout.entries.valid]
  cases written : block with
  | none => rfl
  | some block =>
      rw [List.filterMap_cons_none blank_spec.2.1,
        (layout.valid block written).filterMap_lines]
      rfl

theorem Layout.begins {file : Option Text} {own : List Host} {block : Option Block}
    (layout : Layout file own block) :
    (lines (file.getD [])).filterMap (fun line => syncBegin (trim line)) =
      (block.map Block.master).toList := by
  have none (hosts : List Host) (valid : ∀ host ∈ hosts, host.Valid) :
      (hosts.map hostLine).filterMap (fun line => syncBegin (trim line)) = [] :=
    List.filterMap_eq_nil_iff.mpr (no_begin_hostLines valid)
  rw [layout.content, lines_unlines layout.unbroken]
  unfold fileLines
  simp only [List.filterMap_append, List.filterMap_cons, blank_spec.1, List.filterMap_nil,
    List.append_nil, none own layout.entries.valid, List.nil_append]
  cases written : block with
  | none => rfl
  | some block =>
      have valid := layout.valid block written
      have ended : syncBegin (trim syncEndLine) = Option.none := by
        rw [syncEndLine_spec.1]
        exact syncEndLine_spec.2.2.1
      simp only [Block.lines, List.filterMap_append, List.filterMap_cons, blank_spec.1,
        valid.begin_beginLine, none block.hosts valid.hosts.valid, ended, List.cons_append]
      rfl

theorem Layout.consistent {file : Option Text} {own : List Host} {block : Option Block}
    (layout : Layout file own block) : Consistent file own block := by
  have whole : effective file = parse (lines (file.getD [])) := by
    rw [layout.effective_eq, layout.content, lines_unlines layout.unbroken, parse_eq_foldl,
      parse_eq_foldl, List.filterMap_append, List.filterMap_cons_none blank_spec.2.1,
      List.filterMap_nil, List.append_nil]
  have lastWins (name : Text) : (effective file).find? (fun host => host.name = name) =
      ((lines (file.getD [])).filterMap entry).reverse.find? fun host => host.name = name := by
    rw [whole, parse_eq_foldl, find?_foldl_put]
  refine ⟨layout.load_eq, layout.loadSynced_eq, layout.begins, ?_, whole, lastWins, ?_,
    saveSynced_changed file⟩
  · rintro written rfl
    refine ⟨own.map hostLine ++ [[]], ?_⟩
    rw [layout.content, lines_unlines layout.unbroken]
    simp [fileLines]
  · intro name
    rw [lastWins, layout.filterMap_lines, List.reverse_append, List.find?_append,
      find?_reverse layout.entries.distinct]
    congr 1
    cases written : block with
    | none => rfl
    | some block => exact find?_reverse (layout.valid block written).hosts.distinct name

/-- After any calls of the two writers each reads back what it wrote last, the
block is one and at the end, and to write the same block again changes
nothing. -/
theorem writers_do_not_disturb (ops : List Op) :
    Consistent (run ops) (lastSaved ops) (lastSynced ops) ∧
    ∀ (master : { npub : Text // IsNpub npub })
      (label : Option { name : Text // nameError name = none })
      (hosts : Option { hosts : List Host // Entries hosts }),
      (saveSynced (run (ops ++ [.saveSynced master label hosts])) master
        (label.map Subtype.val) (hosts.map Subtype.val)).2 = false := by
  refine ⟨(layout_run ops).consistent, fun master label hosts => ?_⟩
  have layout := layout_run (ops ++ [.saveSynced master label hosts])
  have synced : lastSynced (ops ++ [.saveSynced master label hosts]) =
      (hosts.map Subtype.val).map fun hosts => ⟨master, label.map Subtype.val, hosts⟩ := by
    rw [lastSynced_concat]
    rfl
  rw [saveSynced, layout.syncedContent_eq, if_pos]
  rw [layout.content, synced]

end Fips2Go.HostsStore
