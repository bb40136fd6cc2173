import Fips2Go.FirstOccurrences
import Mathlib.Data.List.Perm.Basic
import Mathlib.Data.List.Sort
import Mathlib.Data.String.Basic

/-!
# Direct links to the servers of pinned domains

`pinned_servers` of `shim/src/config.rs`: of the servers with a strongly
verified pin, the most recently verified ones that are neither this node nor a
configured peer.  Keys and the pin file are another crate's; of keys only that
their text is read back is relied on.
-/

namespace Fips2Go.PinnedServers

open FirstOccurrences (firsts)

/-- How a binding was verified. -/
inductive Method where
  | dnssec
  | dns
  | weaker
  deriving DecidableEq

/-- A pinned binding of a domain to the key of its server. -/
structure Binding (Npub : Type) where
  npub : Npub
  method : Method
  verifiedAt : Nat

/-- Keys as text: `Npub::parse_any` and `Npub::to_string`. -/
structure Npubs (Npub : Type) where
  parseAny : String → Option Npub
  toString : Npub → String

variable {Npub : Type}

/-- `matches!(p.method, Method::Dnssec | Method::Dns)`. -/
def Binding.isStrong (pin : Binding Npub) : Bool :=
  pin.method = .dnssec ∨ pin.method = .dns

variable (npubs : Npubs Npub)

/-- The comparison that the pins are sorted by. -/
def recency (a b : Binding Npub) : Ordering :=
  (compare b.verifiedAt a.verifiedAt).then
    (compare (npubs.toString a.npub) (npubs.toString b.npub))

/-- The keys that are left out. -/
def knownKeys (own : String) (configured : List String) : List Npub :=
  (configured ++ [own]).filterMap npubs.parseAny

section Loop

variable [DecidableEq Npub]

/-- The loop over the sorted pins. -/
def pick (known : List Npub) (max : Nat) : List (Binding Npub) → List Npub → List Npub
  | [], out => out
  | pin :: pins, out =>
      let out := if pin.npub ∉ known ∧ pin.npub ∉ out then out ++ [pin.npub] else out
      if out.length = max then out else pick known max pins out

/-- `pinned_servers`, given what opening the pin file gives. -/
def pinnedServers (opened : Option (List (Binding Npub))) (max : Nat) (own : String)
    (configured : List String) : List String :=
  if max = 0 then []
  else
    match opened with
    | none => []
    | some pins =>
        let pins := pins.filter Binding.isStrong
        let pins := pins.mergeSort fun a b => (recency npubs a b).isLE
        let known := knownKeys npubs own configured
        (pick known max pins []).map npubs.toString

end Loop

/-! ### The ranking -/

/-- The times at which a server was strongly verified. -/
def strongTimes [DecidableEq Npub] (pins : List (Binding Npub)) (server : Npub) : List Nat :=
  (pins.filter fun pin => pin.isStrong ∧ pin.npub = server).map Binding.verifiedAt

/-- When a server was last strongly verified. -/
def newest [DecidableEq Npub] (pins : List (Binding Npub)) (server : Npub) : Option Nat :=
  (strongTimes pins server).max?

/-- Verified more recently, or at the same time and first by its key's text. -/
def Before [DecidableEq Npub] (pins : List (Binding Npub)) (first second : Npub) : Prop :=
  ∃ firstTime secondTime, newest pins first = some firstTime ∧
    newest pins second = some secondTime ∧
    (secondTime < firstTime ∨
      (secondTime = firstTime ∧ npubs.toString first < npubs.toString second))

/-- A server that a direct link is for: strongly pinned, and neither this node
nor a configured peer. -/
structure Eligible (pins : List (Binding Npub)) (own : String) (configured : List String)
    (server : Npub) : Prop where
  pinned : ∃ pin ∈ pins, pin.isStrong = true ∧ pin.npub = server
  other : ∀ text ∈ configured ++ [own], npubs.parseAny text ≠ some server

section Selection

variable {npubs}

theorem recency_isLE_iff {a b : Binding Npub} :
    (recency npubs a b).isLE ↔ b.verifiedAt < a.verifiedAt ∨
      (b.verifiedAt = a.verifiedAt ∧ npubs.toString a.npub ≤ npubs.toString b.npub) := by
  rw [recency, Ordering.isLE_then_iff_or, compare_lt_iff_lt, compare_eq_iff_eq,
    Ordering.isLE_iff_ne_gt, ← ne_eq, compare_le_iff_le]

theorem mem_knownKeys {own : String} {configured : List String} {server : Npub} :
    server ∈ knownKeys npubs own configured ↔
      ∃ text ∈ configured ++ [own], npubs.parseAny text = some server := by
  rw [knownKeys, List.mem_filterMap]

/-- The strong pins, sorted. -/
def sortedPins (npubs : Npubs Npub) (pins : List (Binding Npub)) : List (Binding Npub) :=
  (pins.filter Binding.isStrong).mergeSort fun a b => (recency npubs a b).isLE

theorem mem_sortedPins (npubs : Npubs Npub) {pins : List (Binding Npub)}
    {pin : Binding Npub} :
    pin ∈ sortedPins npubs pins ↔ pin ∈ pins ∧ pin.isStrong = true := by
  rw [sortedPins, List.mem_mergeSort, List.mem_filter]

theorem pairwise_sortedPins (npubs : Npubs Npub) (pins : List (Binding Npub)) :
    (sortedPins npubs pins).Pairwise fun a b => b.verifiedAt < a.verifiedAt ∨
      (b.verifiedAt = a.verifiedAt ∧ npubs.toString a.npub ≤ npubs.toString b.npub) := by
  refine List.Pairwise.imp recency_isLE_iff.mp (List.pairwise_mergeSort ?_ ?_ _)
  · intro a b c first second
    rw [recency_isLE_iff] at first second ⊢
    rcases first with first | ⟨first, firstText⟩
    · rcases second with second | ⟨second, -⟩
      · exact Or.inl (second.trans first)
      · exact Or.inl (second.trans_lt first)
    · rcases second with second | ⟨second, secondText⟩
      · exact Or.inl (second.trans_eq first)
      · exact Or.inr ⟨second.trans first, firstText.trans secondText⟩
  · intro a b
    rw [Bool.or_eq_true, recency_isLE_iff, recency_isLE_iff]
    rcases lt_trichotomy a.verifiedAt b.verifiedAt with older | same | newer
    · exact Or.inr (Or.inl older)
    · rcases le_total (npubs.toString a.npub) (npubs.toString b.npub) with low | high
      · exact Or.inl (Or.inr ⟨same.symm, low⟩)
      · exact Or.inr (Or.inr ⟨same, high⟩)
    · exact Or.inl (Or.inl newer)

variable [DecidableEq Npub]

theorem mem_strongTimes {pins : List (Binding Npub)} {server : Npub} {time : Nat} :
    time ∈ strongTimes pins server ↔
      ∃ pin ∈ pins, pin.isStrong = true ∧ pin.npub = server ∧ pin.verifiedAt = time := by
  simp [strongTimes, and_assoc]

theorem newest_eq_some_iff {pins : List (Binding Npub)} {server : Npub} {time : Nat} :
    newest pins server = some time ↔
      (∃ pin ∈ pins, pin.isStrong = true ∧ pin.npub = server ∧ pin.verifiedAt = time) ∧
      ∀ pin ∈ pins, pin.isStrong = true → pin.npub = server → pin.verifiedAt ≤ time := by
  rw [newest, List.max?_eq_some_iff, mem_strongTimes]
  refine and_congr_right fun _ => ?_
  constructor
  · intro largest pin member strong same
    exact largest pin.verifiedAt (mem_strongTimes.mpr ⟨pin, member, strong, same, rfl⟩)
  · intro largest time listed
    obtain ⟨pin, member, strong, same, rfl⟩ := mem_strongTimes.mp listed
    exact largest pin member strong same

/-- The order of the pins does not matter for when a server was last verified. -/
theorem newest_perm {pins others : List (Binding Npub)} (perm : others.Perm pins)
    (server : Npub) : newest others server = newest pins server := by
  refine Option.ext fun time => ?_
  simp only [newest_eq_some_iff, perm.mem_iff]

theorem exists_newest {pins : List (Binding Npub)} {pin : Binding Npub} (member : pin ∈ pins)
    (strong : pin.isStrong = true) : ∃ time, newest pins pin.npub = some time := by
  have listed := mem_strongTimes.mpr ⟨pin, member, strong, rfl, rfl⟩
  exact Option.ne_none_iff_exists'.mp
    (mt List.max?_eq_none_iff.mp (List.ne_nil_of_mem listed))

/-- The loop puts out the first so many keys that are new. -/
theorem pick_eq (known : List Npub) {max : Nat} (pins : List (Binding Npub)) {out : List Npub}
    (room : out.length < max) :
    pick known max pins out =
      (out ++ firsts (out.reverse ++ known) (pins.map Binding.npub)).take max := by
  induction pins generalizing out with
  | nil =>
      rw [pick, List.map_nil, firsts, List.append_nil, List.take_of_length_le room.le]
  | cons pin pins ih =>
      rw [pick, List.map_cons]
      by_cases fresh : pin.npub ∉ known ∧ pin.npub ∉ out
      · have new : pin.npub ∉ out.reverse ++ known := by
          rw [List.mem_append, List.mem_reverse, not_or]
          exact ⟨fresh.2, fresh.1⟩
        have longer : (out ++ [pin.npub]).length = out.length + 1 := by simp
        rw [if_pos fresh, FirstOccurrences.firsts_of_not_mem new,
          List.append_cons out pin.npub (firsts _ _)]
        by_cases full : (out ++ [pin.npub]).length = max
        · rw [if_pos full, List.take_left' full]
        · have seen : (out ++ [pin.npub]).reverse ++ known =
              pin.npub :: (out.reverse ++ known) := by simp
          rw [if_neg full, ih (by omega), seen]
      · have old : pin.npub ∈ out.reverse ++ known := by
          rw [List.mem_append, List.mem_reverse]
          by_contra neither
          exact fresh ⟨fun inside => neither (Or.inr inside), fun inside => neither (Or.inl inside)⟩
        rw [if_neg fresh, FirstOccurrences.firsts_of_mem old, if_neg room.ne, ih room]

/-- All eligible servers in their order. -/
def ranking (npubs : Npubs Npub) (pins : List (Binding Npub)) (own : String)
    (configured : List String) : List Npub :=
  firsts (knownKeys npubs own configured) ((sortedPins npubs pins).map Binding.npub)

variable {pins : List (Binding Npub)} {own : String} {configured : List String}

theorem mem_ranking {server : Npub} :
    server ∈ ranking npubs pins own configured ↔ Eligible npubs pins own configured server := by
  rw [ranking, FirstOccurrences.mem_firsts, mem_knownKeys, List.mem_map]
  constructor
  · rintro ⟨⟨pin, member, same⟩, unknown⟩
    obtain ⟨member, strong⟩ := (mem_sortedPins npubs).mp member
    exact ⟨⟨pin, member, strong, same⟩, fun text listed reads => unknown ⟨text, listed, reads⟩⟩
  · rintro ⟨⟨pin, member, strong, same⟩, other⟩
    refine ⟨⟨pin, (mem_sortedPins npubs).mpr ⟨member, strong⟩, same⟩, ?_⟩
    rintro ⟨text, listed, reads⟩
    exact other text listed reads

/-- Of the sorted pins the first one of each server is its newest. -/
theorem pairwise_ranking (injective : Function.Injective npubs.toString) :
    (ranking npubs pins own configured).Pairwise (Before npubs pins) := by
  refine FirstOccurrences.pairwise_firsts Binding.npub ?_
  intro early item late split _ unseen other behind _ unseenOther different
  have sorted := pairwise_sortedPins npubs pins
  rw [split] at sorted
  have follows := (List.pairwise_cons.mp (List.pairwise_append.mp sorted).2.1).1
  have inside {pin : Binding Npub} (member : pin ∈ pins) (strong : pin.isStrong = true)
      (later : pin.npub ∉ early.map Binding.npub) : pin = item ∨ pin ∈ late := by
    have listed := (mem_sortedPins npubs).mpr ⟨member, strong⟩
    rw [split] at listed
    rcases List.mem_append.mp listed with before | rest
    · exact absurd (List.mem_map_of_mem before) later
    · exact List.mem_cons.mp rest
  have member {pin : Binding Npub} (listed : pin ∈ item :: late) :
      pin ∈ pins ∧ pin.isStrong = true := by
    apply (mem_sortedPins npubs).mp
    rw [split]
    exact List.mem_append_right early listed
  obtain ⟨itemMember, itemStrong⟩ := member List.mem_cons_self
  have newestItem : newest pins item.npub = some item.verifiedAt := by
    refine newest_eq_some_iff.mpr ⟨⟨item, itemMember, itemStrong, rfl, rfl⟩, ?_⟩
    intro pin pinMember strong same
    rcases inside pinMember strong (same ▸ unseen) with rfl | later
    · exact le_refl _
    · rcases follows pin later with older | ⟨same, -⟩
      · exact older.le
      · exact same.le
  obtain ⟨otherMember, otherStrong⟩ := member (List.mem_cons_of_mem item behind)
  obtain ⟨time, newestOther⟩ := exists_newest otherMember otherStrong
  refine ⟨item.verifiedAt, time, newestItem, newestOther, ?_⟩
  obtain ⟨⟨pin, pinMember, strong, same, rfl⟩, -⟩ := newest_eq_some_iff.mp newestOther
  rcases inside pinMember strong (same ▸ unseenOther) with rfl | later
  · exact absurd same.symm different
  · rcases follows pin later with older | ⟨equal, text⟩
    · exact Or.inl older
    · rw [same] at text
      exact Or.inr ⟨equal, lt_of_le_of_ne text fun equal => different (injective equal).symm⟩

theorem pinnedServers_eq (npubs : Npubs Npub) (pins : List (Binding Npub)) (max : Nat)
    (own : String) (configured : List String) :
    pinnedServers npubs (some pins) max own configured =
      ((ranking npubs pins own configured).take max).map npubs.toString := by
  rw [pinnedServers]
  by_cases none : max = 0
  · rw [if_pos none, none, List.take_zero, List.map_nil]
  · rw [if_neg none]
    have picked := pick_eq (knownKeys npubs own configured) (sortedPins npubs pins)
      (show ([] : List Npub).length < max from Nat.pos_of_ne_zero none)
    exact congrArg (List.map npubs.toString) picked

theorem before_asymm {first second : Npub} (before : Before npubs pins first second)
    (after : Before npubs pins second first) : first = second := by
  obtain ⟨a, b, newestFirst, newestSecond, order⟩ := before
  obtain ⟨b', a', newestSecond', newestFirst', order'⟩ := after
  rw [newestFirst, Option.some.injEq] at newestFirst'
  rw [newestSecond, Option.some.injEq] at newestSecond'
  subst newestFirst' newestSecond'
  rcases order with order | ⟨same, order⟩
  · rcases order' with order' | ⟨same', -⟩ <;> omega
  · rcases order' with order' | ⟨-, order'⟩
    · omega
    · exact absurd order order'.asymm

/-- Pins in another order rank the servers the same. -/
theorem ranking_perm (injective : Function.Injective npubs.toString)
    {others : List (Binding Npub)} (perm : others.Perm pins) :
    ranking npubs others own configured = ranking npubs pins own configured := by
  have same : (ranking npubs others own configured).Perm (ranking npubs pins own configured) := by
    refine (List.perm_ext_iff_of_nodup (FirstOccurrences.nodup_firsts _ _)
      (FirstOccurrences.nodup_firsts _ _)).mpr fun server => ?_
    change server ∈ ranking npubs others own configured ↔ server ∈ ranking npubs pins own configured
    rw [mem_ranking, mem_ranking]
    constructor
    · rintro ⟨⟨pin, member, strong⟩, other⟩
      exact ⟨⟨pin, perm.mem_iff.mp member, strong⟩, other⟩
    · rintro ⟨⟨pin, member, strong⟩, other⟩
      exact ⟨⟨pin, perm.mem_iff.mpr member, strong⟩, other⟩
  refine List.Perm.eq_of_pairwise (fun _ _ _ _ => before_asymm) ?_
    (pairwise_ranking injective) same
  refine (pairwise_ranking injective).imp ?_
  rintro first second ⟨a, b, newestFirst, newestSecond, order⟩
  rw [newest_perm perm] at newestFirst newestSecond
  exact ⟨a, b, newestFirst, newestSecond, order⟩

/-- What is selected is the first so many of the eligible servers, each once,
in the order of their newest strong pins and then of their keys, and it is the
same for every order of the pins. -/
theorem pinned_servers_selects (npubs : Npubs Npub)
    (readsBack : ∀ npub, npubs.parseAny (npubs.toString npub) = some npub)
    (pins : List (Binding Npub)) (max : Nat) (own : String) (configured : List String) :
    (∃ servers : List Npub, servers.Nodup ∧
      (∀ server, server ∈ servers ↔ Eligible npubs pins own configured server) ∧
      servers.Pairwise (Before npubs pins) ∧
      pinnedServers npubs (some pins) max own configured =
        (servers.take max).map npubs.toString ∧
      (pinnedServers npubs (some pins) max own configured).length = min max servers.length) ∧
    (pinnedServers npubs (some pins) max own configured).Nodup ∧
    ∀ others : List (Binding Npub), others.Perm pins →
      pinnedServers npubs (some others) max own configured =
        pinnedServers npubs (some pins) max own configured := by
  have injective : Function.Injective npubs.toString := by
    intro first second same
    have reads := readsBack first
    rw [same, readsBack second, Option.some.injEq] at reads
    exact reads.symm
  have nodup : (ranking npubs pins own configured).Nodup := FirstOccurrences.nodup_firsts _ _
  refine ⟨⟨ranking npubs pins own configured, nodup, fun _ => mem_ranking,
    pairwise_ranking injective, pinnedServers_eq npubs pins max own configured, ?_⟩, ?_, ?_⟩
  · rw [pinnedServers_eq, List.length_map, List.length_take]
  · rw [pinnedServers_eq]
    exact (nodup.sublist (List.take_sublist _ _)).map injective
  · intro others perm
    rw [pinnedServers_eq, pinnedServers_eq, ranking_perm injective perm]

end Selection

/-! ### Four keys -/

inductive SampleKey where
  | a
  | b
  | c
  | own
  deriving DecidableEq

def SampleKey.npub : SampleKey → String
  | .a => "npub1qyqszqgpqyqszqgpqyqszqgpqyqszqgpqyqszqgpqyqszqgpqyqs8j9gdm"
  | .b => "npub1qgpqyqszqgpqyqszqgpqyqszqgpqyqszqgpqyqszqgpqyqszqgpq2yz0cn"
  | .c => "npub1qvpsxqcrqvpsxqcrqvpsxqcrqvpsxqcrqvpsxqcrqvpsxqcrqvps0km4w3"
  | .own => "npub1qszqgpqyqszqgpqyqszqgpqyqszqgpqyqszqgpqyqszqgpqyqszq764t2k"

def SampleKey.hex : SampleKey → String
  | .a => "0101010101010101010101010101010101010101010101010101010101010101"
  | .b => "0202020202020202020202020202020202020202020202020202020202020202"
  | .c => "0303030303030303030303030303030303030303030303030303030303030303"
  | .own => "0404040404040404040404040404040404040404040404040404040404040404"

def sampleNpubs : Npubs SampleKey where
  parseAny text := [SampleKey.a, .b, .c, .own].find? fun key => key.npub = text ∨ key.hex = text
  toString := SampleKey.npub

/-- A weak pin that is the newest, this node, a server pinned twice, and a
configured peer between its pins and the last one. -/
def samplePins : List (Binding SampleKey) :=
  [⟨.c, .weaker, 60⟩, ⟨.own, .dnssec, 50⟩, ⟨.a, .dnssec, 30⟩, ⟨.a, .dns, 25⟩, ⟨.b, .dnssec, 20⟩,
    ⟨.c, .dns, 10⟩]

/-- Read in the other order. -/
theorem sample_selection :
    pinnedServers sampleNpubs (some samplePins.reverse) 2 SampleKey.own.npub [SampleKey.b.hex] =
      [SampleKey.a.npub, SampleKey.c.npub] := by
  have readsBack : ∀ key, sampleNpubs.parseAny (sampleNpubs.toString key) = some key := by
    intro key
    cases key <;> decide +kernel
  have selected : pinnedServers sampleNpubs (some samplePins) 2 SampleKey.own.npub
      [SampleKey.b.hex] = [SampleKey.a.npub, SampleKey.c.npub] := by
    have sorted : sortedPins sampleNpubs samplePins = samplePins.filter Binding.isStrong :=
      List.mergeSort_of_pairwise (by decide +kernel)
    rw [pinnedServers_eq, ranking, sorted]
    decide +kernel
  have selects := pinned_servers_selects sampleNpubs readsBack samplePins 2 SampleKey.own.npub
    [SampleKey.b.hex]
  exact (selects.2.2 samplePins.reverse (List.reverse_perm samplePins)).trans selected

end Fips2Go.PinnedServers
