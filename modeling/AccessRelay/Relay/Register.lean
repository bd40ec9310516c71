import AccessRelay.Machine.Run
import AccessRelay.Proto.Frame
import AccessRelay.Relay.LiveStreams
import Mathlib.Data.List.AList

/-!
# The register of live streams as a map of maps

`LiveStreams` of `internal/relay/authorization` with its two levels of maps, its counters, and with
`Add`, the release functions and `Terminate` in any interleaving. `Register.entries` flattens the
maps, and each operation on them is one on the entries (`perm_insert`, `perm_release`,
`perm_collect`), which is how `Relay.LiveStreams` has them (`Register.Flat`).

The number that `Add` draws has 64 bits. A `Ticket` is one call of `Add` with a number that does
not wrap, and `outstanding` are the tickets that were neither released nor terminated.
`register_exact` says that the register holds exactly these.
-/

namespace AccessRelay.Relay

open Encoding Machine Proto

/-- The streams of one grant, by number. -/
abbrev StreamSet (Closer : Type) := AList fun _ : UInt64 => StreamPair Closer

/-- The streams by the grant that authorized them, and the number given out last. -/
structure Register (Closer : Type) where
  byGrant : AList fun _ : Bytes => StreamSet Closer
  nextID : UInt64

namespace Register

variable {Closer : Type} (r : Register Closer)

/-- `NewLiveStreams`. -/
def empty : Register Closer := ⟨∅, 0⟩

/-- The critical section of `Add`. -/
def insert (key : Registration) (pair : StreamPair Closer) : Register Closer :=
  let streams : StreamSet Closer := (r.byGrant.lookup key.grantID).getD ∅
  { r with byGrant := r.byGrant.insert key.grantID (streams.insert key.id pair) }

/-- The release function that `Add` returned. The last stream of a grant takes the grant with
it. -/
def release (key : Registration) : Register Closer :=
  match r.byGrant.lookup key.grantID with
  | none => r
  | some streams =>
      let left := streams.erase key.id
      if left.entries.length = 0 then { r with byGrant := r.byGrant.erase key.grantID }
      else { r with byGrant := r.byGrant.insert key.grantID left }

/-- The pairs of one grant. -/
def pairsOf (grantID : Bytes) : List (StreamPair Closer) :=
  ((r.byGrant.lookup grantID).getD ∅).entries.map (·.2)

/-- The critical section of `Terminate`. -/
def collect (r : Register Closer) : List Bytes → List (StreamPair Closer) × Register Closer
  | [] => ([], r)
  | grantID :: rest =>
      let result := collect { r with byGrant := r.byGrant.erase grantID } rest
      (r.pairsOf grantID ++ result.1, result.2)

/-- `CountFor`. -/
def countFor (grantID : Bytes) : Nat := ((r.byGrant.lookup grantID).getD ∅).entries.length

/-- `Count`. -/
def count : Nat := (r.byGrant.entries.map fun grant => grant.2.entries.length).sum

/-- The registered pairs with their keys. -/
def entries : List (LiveEntry Closer) :=
  r.byGrant.entries.flatMap fun grant =>
    grant.2.entries.map fun stream => ⟨⟨grant.1, stream.1⟩, stream.2⟩

/-- No grant has an empty set of streams. -/
def NoneEmpty : Prop :=
  ∀ grantID streams, r.byGrant.lookup grantID = some streams → streams.entries ≠ []

end Register

section Find

variable {Closer : Type} (r : Register Closer) (key k : Registration) (pair : StreamPair Closer)

/-- The pair under a key. -/
def Register.find : Option (StreamPair Closer) :=
  (r.byGrant.lookup k.grantID).bind fun streams => streams.lookup k.id

/-- Two keys of one grant differ in the number. -/
theorem registration_eq {k key : Registration} (hgrant : k.grantID = key.grantID) :
    k = key ↔ k.id = key.id := by
  constructor
  · exact fun h => congrArg Registration.id h
  · intro hid
    cases k
    cases key
    cases hgrant
    cases hid
    rfl

/-- The streams of a grant in which one number was looked up. -/
theorem find_of_lookup {streams : StreamSet Closer}
    (h : r.byGrant.lookup k.grantID = some streams) : r.find k = streams.lookup k.id := by
  rw [Register.find, h, Option.bind_some]

theorem find_getD (h : k.grantID = key.grantID) :
    ((r.byGrant.lookup key.grantID).getD ∅).lookup k.id = r.find k := by
  rw [Register.find, h]
  cases r.byGrant.lookup key.grantID with
  | none => rfl
  | some streams => rfl

theorem find_insert : (r.insert key pair).find k = if k = key then some pair else r.find k := by
  by_cases hgrant : k.grantID = key.grantID
  · have hlookup : (r.insert key pair).byGrant.lookup k.grantID =
        some (((r.byGrant.lookup key.grantID).getD ∅).insert key.id pair) := by
      rw [hgrant]
      exact AList.lookup_insert _
    rw [find_of_lookup _ _ hlookup]
    split
    next heq => rw [heq, AList.lookup_insert]
    next hne =>
      have hid : k.id ≠ key.id := mt (registration_eq hgrant).mpr hne
      rw [AList.lookup_insert_ne hid, find_getD r key k hgrant]
  · rw [if_neg fun h => hgrant (congrArg Registration.grantID h), Register.find, Register.find]
    congr 1
    exact AList.lookup_insert_ne hgrant

theorem find_release : (r.release key).find k = if k = key then none else r.find k := by
  unfold Register.release
  split
  next hlookup =>
    split
    next heq => rw [heq, Register.find, hlookup, Option.bind_none]
    · rfl
  next streams hlookup =>
    by_cases hgrant : k.grantID = key.grantID
    · -- What is left of the grant's streams, in the register or not.
      have hleft : (streams.erase key.id).lookup k.id = if k = key then none else r.find k := by
        rw [find_of_lookup r k (hgrant ▸ hlookup)]
        split
        next heq => rw [heq, AList.lookup_erase]
        next hne => rw [AList.lookup_erase_ne (mt (registration_eq hgrant).mpr hne)]
      rw [← hleft]
      dsimp only
      split
      next hempty =>
        have hnone : streams.erase key.id = ∅ :=
          AList.ext (List.length_eq_zero_iff.mp hempty)
        rw [hnone, AList.lookup_empty, Register.find, hgrant, AList.lookup_erase, Option.bind_none]
      · rw [Register.find, hgrant, AList.lookup_insert, Option.bind_some]
    · rw [if_neg fun h => hgrant (congrArg Registration.grantID h), Register.find, Register.find]
      dsimp only
      congr 1
      split
      · exact AList.lookup_erase_ne hgrant
      · exact AList.lookup_insert_ne hgrant

theorem find_erase (grantID : Bytes) :
    ({ r with byGrant := r.byGrant.erase grantID } : Register Closer).find k =
      if k.grantID = grantID then none else r.find k := by
  unfold Register.find
  split
  next heq => rw [heq, AList.lookup_erase, Option.bind_none]
  next hne => rw [AList.lookup_erase_ne hne]

theorem find_collect (grantIDs : List Bytes) : (r.collect grantIDs).2.find k =
    if k.grantID ∈ grantIDs then none else r.find k := by
  induction grantIDs generalizing r with
  | nil => rfl
  | cons grantID rest ih =>
      show (Register.collect _ rest).2.find k = _
      rw [ih, find_erase]
      by_cases hfirst : k.grantID = grantID
      · simp [hfirst]
      · simp [hfirst]

end Find

section Entries

variable {Closer : Type} {r : Register Closer} {key : Registration} {pair : StreamPair Closer}
  {e : LiveEntry Closer}

theorem mem_entries : e ∈ r.entries ↔ r.find e.key = some e.pair := by
  simp only [Register.entries, List.mem_flatMap, List.mem_map, Register.find,
    Option.bind_eq_some_iff]
  constructor
  · intro h
    obtain ⟨⟨grantID, streams⟩, hgrant, ⟨id, pair⟩, hstream, rfl⟩ := h
    exact ⟨streams, AList.mem_lookup_iff.mpr hgrant, AList.mem_lookup_iff.mpr hstream⟩
  · intro h
    obtain ⟨streams, hgrant, hstream⟩ := h
    exact ⟨⟨_, streams⟩, AList.mem_lookup_iff.mp hgrant, ⟨_, e.pair⟩,
      AList.mem_lookup_iff.mp hstream, rfl⟩

/-- A key has one pair. -/
theorem nodup_keys (r : Register Closer) : (r.entries.map (·.key)).Nodup := by
  simp only [Register.entries, List.map_flatMap, List.map_map]
  rw [List.nodup_flatMap]
  constructor
  · intro grant _
    refine List.Nodup.of_map (·.id) ?_
    rw [List.map_map]
    exact grant.2.keys_nodup
  · refine (List.pairwise_map.mp r.byGrant.keys_nodup).imp ?_
    intro grant grant' hne key hkey hkey'
    obtain ⟨stream, -, rfl⟩ := List.mem_map.mp hkey
    obtain ⟨stream', -, heq⟩ := List.mem_map.mp hkey'
    exact hne (congrArg Registration.grantID heq).symm

theorem nodup_entries (r : Register Closer) : r.entries.Nodup := (nodup_keys r).of_map _

theorem count_eq (r : Register Closer) : r.count = r.entries.length := by
  simp [Register.count, Register.entries, List.length_flatMap]

/-- The pairs of a grant are the entries with this grant. -/
theorem perm_pairs_of (r : Register Closer) (grantID : Bytes) :
    (r.pairsOf grantID).Perm
      ((r.entries.filter fun e => e.key.grantID = grantID).map (·.pair)) := by
  unfold Register.pairsOf
  generalize hstreams : (r.byGrant.lookup grantID).getD ∅ = streams
  have hperm : (streams.entries.map fun stream =>
      (⟨⟨grantID, stream.1⟩, stream.2⟩ : LiveEntry Closer)).Perm
        (r.entries.filter fun e => e.key.grantID = grantID) := by
    refine (List.perm_ext_iff_of_nodup ?_ ((nodup_entries r).filter _)).mpr ?_
    · refine List.Nodup.of_map (·.key.id) ?_
      rw [List.map_map]
      exact streams.keys_nodup
    · intro e
      rw [List.mem_filter, mem_entries, List.mem_map, decide_eq_true_eq]
      constructor
      · intro h
        obtain ⟨stream, hmem, rfl⟩ := h
        refine ⟨?_, rfl⟩
        rw [← find_getD r ⟨grantID, stream.1⟩ ⟨grantID, stream.1⟩ rfl, hstreams]
        exact AList.mem_lookup_iff.mpr hmem
      · intro h
        obtain ⟨hfind, rfl⟩ := h
        rw [← find_getD r e.key e.key rfl, hstreams] at hfind
        exact ⟨⟨_, e.pair⟩, AList.mem_lookup_iff.mp hfind, rfl⟩
  have hpairs := hperm.map (·.pair)
  rwa [List.map_map] at hpairs

theorem count_for_eq (r : Register Closer) (grantID : Bytes) :
    r.countFor grantID = (r.entries.filter fun e => e.key.grantID = grantID).length := by
  have hlength := (perm_pairs_of r grantID).length_eq
  rwa [Register.pairsOf, List.length_map, List.length_map] at hlength

theorem perm_insert (r : Register Closer) (key : Registration) (pair : StreamPair Closer) :
    (r.insert key pair).entries.Perm (⟨key, pair⟩ :: r.entries.filter fun e => e.key ≠ key) := by
  refine (List.perm_ext_iff_of_nodup (nodup_entries _) ?_).mpr ?_
  · refine List.nodup_cons.mpr ⟨?_, (nodup_entries r).filter _⟩
    simp
  · intro e
    rw [mem_entries, find_insert, List.mem_cons, List.mem_filter, mem_entries]
    split
    next hkey =>
      simp only [Option.some.injEq, hkey, ne_eq, not_true_eq_false, decide_false,
        Bool.false_eq_true, and_false, or_false]
      cases e
      simp_all [eq_comm]
    next hkey =>
      have hne : e ≠ ⟨key, pair⟩ := fun h => hkey (congrArg LiveEntry.key h)
      simp [hkey, hne]

theorem perm_release (r : Register Closer) (key : Registration) :
    (r.release key).entries.Perm (r.entries.filter fun e => e.key ≠ key) := by
  refine (List.perm_ext_iff_of_nodup (nodup_entries _) ((nodup_entries r).filter _)).mpr ?_
  intro e
  rw [mem_entries, find_release, List.mem_filter, mem_entries]
  split
  next hkey => simp [hkey]
  next hkey => simp [hkey]

theorem perm_collect (r : Register Closer) (grantIDs : List Bytes) :
    (r.collect grantIDs).2.entries.Perm (r.entries.filter fun e => e.key.grantID ∉ grantIDs) := by
  refine (List.perm_ext_iff_of_nodup (nodup_entries _) ((nodup_entries r).filter _)).mpr ?_
  intro e
  rw [mem_entries, find_collect, List.mem_filter, mem_entries]
  split
  next hmem => simp [hmem]
  next hmem => simp [hmem]

/-- Entries of one grant, and of the others. -/
theorem perm_erase (r : Register Closer) (grantID : Bytes) :
    ({ r with byGrant := r.byGrant.erase grantID } : Register Closer).entries.Perm
      (r.entries.filter fun e => e.key.grantID ≠ grantID) := by
  have hperm := perm_collect r [grantID]
  simp only [List.mem_singleton] at hperm
  exact hperm

end Entries

section Flat

variable {Closer : Type} {r : Register Closer} {l : LiveStreams Closer}

/-- The maps hold the same streams as the list of entries. -/
structure Register.Flat (r : Register Closer) (l : LiveStreams Closer) : Prop where
  entries : r.entries.Perm l.entries
  nextID : r.nextID = l.nextID

theorem flat_self (r : Register Closer) : r.Flat ⟨r.entries, r.nextID⟩ := ⟨.refl _, rfl⟩

theorem flat_release (h : r.Flat l) (key : Registration) :
    (r.release key).Flat (l.release (some key)) := by
  refine ⟨(perm_release r key).trans (h.entries.filter _), ?_⟩
  rw [show (l.release (some key)).nextID = l.nextID from rfl, ← h.nextID]
  unfold Register.release
  split
  · rfl
  · dsimp only
    split <;> rfl

theorem flat_collect (h : r.Flat l) (grantIDs : List Bytes) :
    (r.collect grantIDs).2.Flat (l.collect grantIDs).2 ∧
      (r.collect grantIDs).1.Perm (l.collect grantIDs).1 := by
  induction grantIDs generalizing r l with
  | nil => exact ⟨h, .refl _⟩
  | cons grantID rest ih =>
      have hrest := ih (r := { r with byGrant := r.byGrant.erase grantID }) (l := l.drop grantID)
        ⟨(perm_erase r grantID).trans (h.entries.filter _), h.nextID⟩
      refine ⟨hrest.1, List.Perm.append ?_ hrest.2⟩
      exact (perm_pairs_of r grantID).trans ((h.entries.filter _).map _)

end Flat

/-- What `Terminate` collects, up to the order. -/
theorem LiveStreams.perm_collect_streams {Closer : Type} (l : LiveStreams Closer)
    (grantIDs : List Bytes) :
    (l.collect grantIDs).1.Perm
      ((l.entries.filter fun e => e.key.grantID ∈ grantIDs).map (·.pair)) := by
  induction grantIDs generalizing l with
  | nil => simp [collect]
  | cons grantID rest ih =>
      -- The streams of the first grant, and of the rest among those that are left.
      have hsplit := (List.filter_append_perm (fun e => decide (e.key.grantID = grantID))
        (l.entries.filter fun e => e.key.grantID ∈ grantID :: rest)).map (·.pair)
      rw [List.map_append, List.filter_filter, List.filter_filter] at hsplit
      refine List.Perm.trans (List.Perm.append ?_ ((ih (l.drop grantID)).trans ?_)) hsplit
      · refine .of_eq (congrArg _ (List.filter_congr fun e _ => ?_))
        by_cases hfirst : e.key.grantID = grantID <;> simp [hfirst]
      · rw [drop, List.filter_filter]
        refine .of_eq (congrArg _ (List.filter_congr fun e _ => ?_))
        by_cases hfirst : e.key.grantID = grantID <;> simp [hfirst]

theorem perm_collected {Closer : Type} (r : Register Closer) (grantIDs : List Bytes) :
    (r.collect grantIDs).1.Perm
      ((r.entries.filter fun e => e.key.grantID ∈ grantIDs).map (·.pair)) :=
  (flat_collect (flat_self r) grantIDs).2.trans (LiveStreams.perm_collect_streams _ grantIDs)

section NoneEmpty

variable {Closer : Type} {r : Register Closer}

theorem none_empty_erase (h : r.NoneEmpty) (grantID : Bytes) :
    ({ r with byGrant := r.byGrant.erase grantID } : Register Closer).NoneEmpty := by
  intro g streams hlookup
  dsimp only at hlookup
  by_cases hg : g = grantID
  · rw [hg, AList.lookup_erase] at hlookup
    cases hlookup
  · rw [AList.lookup_erase_ne hg] at hlookup
    exact h g streams hlookup

/-- A set that is not empty is stored. -/
theorem none_empty_insert (h : r.NoneEmpty) (grantID : Bytes) {set : StreamSet Closer}
    (hset : set.entries ≠ []) :
    ({ r with byGrant := r.byGrant.insert grantID set } : Register Closer).NoneEmpty := by
  intro g streams hlookup
  dsimp only at hlookup
  by_cases hg : g = grantID
  · rw [hg, AList.lookup_insert] at hlookup
    cases hlookup
    exact hset
  · rw [AList.lookup_insert_ne hg] at hlookup
    exact h g streams hlookup

theorem Register.NoneEmpty.insert (h : r.NoneEmpty) (key : Registration)
    (pair : StreamPair Closer) : (r.insert key pair).NoneEmpty := by
  refine none_empty_insert h key.grantID ?_
  rw [AList.entries_insert]
  exact List.cons_ne_nil _ _

theorem Register.NoneEmpty.release (h : r.NoneEmpty) (key : Registration) :
    (r.release key).NoneEmpty := by
  unfold Register.release
  split
  · exact h
  · dsimp only
    split
    · exact none_empty_erase h key.grantID
    next hleft => exact none_empty_insert h key.grantID fun hnil => hleft (by rw [hnil]; rfl)

theorem Register.NoneEmpty.collect (h : r.NoneEmpty) (grantIDs : List Bytes) :
    (r.collect grantIDs).2.NoneEmpty := by
  induction grantIDs generalizing r with
  | nil => exact h
  | cons grantID rest ih => exact ih (none_empty_erase h grantID)

end NoneEmpty

/-- One call of `Add` with a grant: its place among all of them, the key that its release function
remembers, and the pair. -/
structure Ticket (Closer : Type) where
  serial : Nat
  key : Registration
  pair : StreamPair Closer

def Ticket.entry {Closer : Type} (t : Ticket Closer) : LiveEntry Closer := ⟨t.key, t.pair⟩

/-- Both ends of a pair, in the order in which `Terminate` resets them. -/
def StreamPair.ends {Closer : Type} (pair : StreamPair Closer) : List Closer :=
  [pair.operator, pair.agent]

/-- A `Terminate` that has left its critical section: the pairs it collected, whose number it
returns, the ends that it has still to reset with its reason, and those that it has reset. The
tickets are those that were outstanding for the named grants. -/
structure Termination (Closer : Type) where
  reason : Reason
  doomed : List (StreamPair Closer)
  pending : List Closer
  resets : List Closer
  tickets : List (Ticket Closer)

/-- What `Terminate` returns. -/
def Termination.result {Closer : Type} (t : Termination Closer) : Nat := t.doomed.length

/-- The register, the calls of `Add` that have drawn a number and not yet taken the lock, those
that have returned, and the terminations. `drawn` and `outstanding` are not in the source. -/
structure RegisterState (Closer : Type) where
  register : Register Closer
  drawn : Nat
  inFlight : List (Ticket Closer)
  inserted : List (Ticket Closer)
  outstanding : List (Ticket Closer)
  terminations : List (Termination Closer)

/-- `Add` draws its number, or takes the lock; a release function is called; `Terminate` takes the
lock, or resets one end. -/
inductive RegisterAction (Closer : Type) where
  | add (grantID : Bytes) (pair : StreamPair Closer)
  | insert (index : Nat)
  | release (index : Nat)
  | terminate (grantIDs : List Bytes) (reason : Reason)
  | reset (index : Nat)

/-- The action draws a number. -/
def RegisterAction.draws {Closer : Type} : RegisterAction Closer → Bool
  | .add grantID _ => grantID ≠ []
  | _ => false

namespace RegisterState

variable {Closer : Type}

/-- A new register. -/
def new : RegisterState Closer := ⟨.empty, 0, [], [], [], []⟩

/-- One step. A stream without a grant is not registered, and releasing it does nothing. -/
def step (s : RegisterState Closer) : RegisterAction Closer → Option (RegisterState Closer)
  | .add grantID pair =>
      some (if grantID = [] then s
        else { s with
          register := { s.register with nextID := s.register.nextID + 1 }
          drawn := s.drawn + 1
          inFlight := ⟨s.drawn + 1, ⟨grantID, s.register.nextID + 1⟩, pair⟩ :: s.inFlight })
  | .insert index =>
      (s.inFlight[index]?).map fun t =>
        { s with
          register := s.register.insert t.key t.pair
          inFlight := s.inFlight.eraseIdx index
          inserted := t :: s.inserted
          outstanding := t :: s.outstanding }
  | .release index =>
      (s.inserted[index]?).map fun t =>
        { s with
          register := s.register.release t.key
          outstanding := s.outstanding.filter fun o => o.serial ≠ t.serial }
  | .terminate grantIDs reason =>
      let result := s.register.collect grantIDs
      some { s with
        register := result.2
        outstanding := s.outstanding.filter fun o => o.key.grantID ∉ grantIDs
        terminations :=
          ⟨reason, result.1, result.1.flatMap StreamPair.ends, [],
            s.outstanding.filter fun o => o.key.grantID ∈ grantIDs⟩ :: s.terminations }
  | .reset index =>
      (s.terminations[index]?).bind fun t =>
        match t.pending with
        | [] => none
        | closer :: rest =>
            some { s with
              terminations := s.terminations.set index
                { t with pending := rest, resets := t.resets ++ [closer] } }

/-- The tickets that terminations have counted. -/
def counted (s : RegisterState Closer) : List (Ticket Closer) :=
  s.terminations.flatMap (·.tickets)

/-- What every run keeps while the numbers have not wrapped. -/
structure Sound (s : RegisterState Closer) : Prop where
  entries : s.register.entries.Perm (s.outstanding.map Ticket.entry)
  noneEmpty : s.register.NoneEmpty
  nextID : s.register.nextID = UInt64.ofNat s.drawn
  numbered : ∀ t ∈ s.inFlight ++ s.inserted,
    t.key.id = UInt64.ofNat t.serial ∧ t.serial ≤ s.drawn
  serials : ((s.inFlight ++ s.inserted).map (·.serial)).Nodup
  known : s.counted ++ s.outstanding ⊆ s.inserted
  once : ((s.counted ++ s.outstanding).map (·.serial)).Nodup
  terminated : ∀ t ∈ s.terminations, t.doomed.Perm (t.tickets.map (·.pair)) ∧
    t.resets ++ t.pending = t.doomed.flatMap StreamPair.ends

end RegisterState

section Sound

variable {Closer : Type} {s s' : RegisterState Closer} {t t' : Ticket Closer}

/-- Numbers that have not wrapped tell tickets apart. -/
theorem RegisterState.Sound.key_inj (h : s.Sound) (hfew : s.drawn < 2 ^ 64)
    (ht : t ∈ s.inFlight ++ s.inserted) (ht' : t' ∈ s.inFlight ++ s.inserted)
    (hkey : t.key = t'.key) : t = t' := by
  obtain ⟨hid, hle⟩ := h.numbered t ht
  obtain ⟨hid', hle'⟩ := h.numbered t' ht'
  have hword : UInt64.ofNat t.serial = UInt64.ofNat t'.serial := by
    rw [← hid, ← hid', hkey]
  have hserial := congrArg UInt64.toNat hword
  rw [UInt64.toNat_ofNat_of_lt' (hle.trans_lt hfew),
    UInt64.toNat_ofNat_of_lt' (hle'.trans_lt hfew)] at hserial
  exact List.inj_on_of_nodup_map h.serials ht ht' hserial

theorem RegisterState.Sound.inserted_mem (h : s.Sound) (ht : t ∈ s.outstanding) :
    t ∈ s.inserted := h.known (List.mem_append_right _ ht)

/-- `Add` has drawn a number. -/
theorem RegisterState.Sound.add (h : s.Sound) (grantID : Bytes) (pair : StreamPair Closer) :
    ({ s with
      register := { s.register with nextID := s.register.nextID + 1 }
      drawn := s.drawn + 1
      inFlight := ⟨s.drawn + 1, ⟨grantID, s.register.nextID + 1⟩, pair⟩ :: s.inFlight } :
      RegisterState Closer).Sound := by
  refine ⟨h.entries, h.noneEmpty, ?_, ?_, ?_, h.known, h.once, h.terminated⟩
  · show s.register.nextID + 1 = _
    rw [h.nextID, UInt64.ofNat_add]
    rfl
  · intro t ht
    rcases List.mem_cons.mp ht with rfl | ht
    · refine ⟨?_, Nat.le_refl _⟩
      show s.register.nextID + 1 = _
      rw [h.nextID, UInt64.ofNat_add]
      rfl
    · exact ⟨(h.numbered t ht).1, (h.numbered t ht).2.trans (Nat.le_succ _)⟩
  · refine List.nodup_cons.mpr ⟨?_, h.serials⟩
    intro hmem
    obtain ⟨t, ht, hserial⟩ := List.mem_map.mp hmem
    have hserial : t.serial = s.drawn + 1 := hserial
    have hle := (h.numbered t ht).2
    omega

/-- `Add` has taken the lock. Nothing is registered under its key. -/
theorem RegisterState.Sound.insert (h : s.Sound) (hfew : s.drawn < 2 ^ 64) {index : Nat}
    (ht : s.inFlight[index]? = some t) :
    ({ s with
      register := s.register.insert t.key t.pair
      inFlight := s.inFlight.eraseIdx index
      inserted := t :: s.inserted
      outstanding := t :: s.outstanding } : RegisterState Closer).Sound := by
  have hmem : t ∈ s.inFlight := List.mem_of_getElem? ht
  have hperm : (s.inFlight.eraseIdx index ++ t :: s.inserted).Perm (s.inFlight ++ s.inserted) := by
    obtain ⟨hlt, hget⟩ := List.getElem?_eq_some_iff.mp ht
    have hfront : (t :: s.inFlight.eraseIdx index).Perm s.inFlight := by
      rw [← hget]
      exact List.getElem_cons_eraseIdx_perm hlt
    exact List.perm_middle.trans (hfront.append_right s.inserted)
  have hnew : ∀ o ∈ s.inserted, o ≠ t := by
    intro o ho heq
    have hserials := h.serials
    rw [List.map_append, List.nodup_append] at hserials
    exact hserials.2.2 _ (List.mem_map_of_mem hmem) _ (List.mem_map_of_mem ho)
      (by rw [heq])
  refine ⟨?_, h.noneEmpty.insert _ _, ?_, ?_, ?_, ?_, ?_, h.terminated⟩
  · refine (perm_insert _ _ _).trans (List.Perm.cons _ ?_)
    refine (h.entries.filter _).trans (.of_eq (List.filter_eq_self.mpr ?_))
    intro e he
    obtain ⟨o, ho, rfl⟩ := List.mem_map.mp he
    have hinserted := h.inserted_mem ho
    refine decide_eq_true fun hkey => hnew o hinserted ?_
    exact h.key_inj hfew (List.mem_append_right _ hinserted) (List.mem_append_left _ hmem) hkey
  · exact h.nextID
  · intro o ho
    exact h.numbered o (hperm.mem_iff.mp ho)
  · exact (hperm.map _).nodup_iff.mpr h.serials
  · intro o ho
    rcases List.mem_append.mp ho with ho | ho
    · exact List.mem_cons_of_mem _ (h.known (List.mem_append_left _ ho))
    · rcases List.mem_cons.mp ho with rfl | ho
      · exact List.mem_cons_self
      · exact List.mem_cons_of_mem _ (h.inserted_mem ho)
  · rw [(List.perm_middle.map _).nodup_iff, List.map_cons]
    refine List.nodup_cons.mpr ⟨?_, h.once⟩
    intro hserial
    obtain ⟨o, ho, hserial⟩ := List.mem_map.mp hserial
    have hinserted := h.known ho
    exact hnew o hinserted (List.inj_on_of_nodup_map h.serials
      (List.mem_append_right _ hinserted) (List.mem_append_left _ hmem) hserial)

/-- A release function, called at any time. -/
theorem RegisterState.Sound.release (h : s.Sound) (hfew : s.drawn < 2 ^ 64)
    (ht : t ∈ s.inserted) :
    ({ s with
      register := s.register.release t.key
      outstanding := s.outstanding.filter fun o => o.serial ≠ t.serial } :
      RegisterState Closer).Sound := by
  have hsublist : (s.counted ++ s.outstanding.filter fun o => o.serial ≠ t.serial).Sublist
      (s.counted ++ s.outstanding) := List.filter_sublist.append_left _
  refine ⟨?_, h.noneEmpty.release _, ?_, h.numbered, h.serials, ?_, ?_, h.terminated⟩
  · refine (perm_release _ _).trans ((h.entries.filter _).trans (.of_eq ?_))
    rw [List.filter_map]
    refine congrArg _ (List.filter_congr fun o ho => ?_)
    have hinserted := List.mem_append_right s.inFlight (h.inserted_mem ho)
    have ht' := List.mem_append_right s.inFlight ht
    have hsame : o.key = t.key ↔ o.serial = t.serial :=
      ⟨fun hkey => congrArg Ticket.serial (h.key_inj hfew hinserted ht' hkey),
        fun hserial => congrArg Ticket.key
          (List.inj_on_of_nodup_map h.serials hinserted ht' hserial)⟩
    simp [Ticket.entry, hsame]
  · rw [← h.nextID]
    exact (flat_release (flat_self s.register) t.key).nextID
  · exact List.Subset.trans hsublist.subset h.known
  · exact (hsublist.map _).nodup h.once

/-- The critical section of `Terminate`. -/
theorem RegisterState.Sound.terminate (h : s.Sound) (grantIDs : List Bytes) (reason : Reason) :
    ({ s with
      register := (s.register.collect grantIDs).2
      outstanding := s.outstanding.filter fun o => o.key.grantID ∉ grantIDs
      terminations :=
        ⟨reason, (s.register.collect grantIDs).1,
          (s.register.collect grantIDs).1.flatMap StreamPair.ends, [],
          s.outstanding.filter fun o => o.key.grantID ∈ grantIDs⟩ :: s.terminations } :
      RegisterState Closer).Sound := by
  -- The tickets move from `outstanding` to `counted`.
  have hperm : ((s.outstanding.filter fun o => o.key.grantID ∈ grantIDs) ++ s.counted ++
      s.outstanding.filter fun o => o.key.grantID ∉ grantIDs).Perm
        (s.counted ++ s.outstanding) := by
    have hsplit := List.filter_append_perm
      (fun o : Ticket Closer => decide (o.key.grantID ∈ grantIDs)) s.outstanding
    simp only [← decide_not] at hsplit
    refine (List.perm_append_comm.append_right _).trans ?_
    rw [List.append_assoc]
    exact hsplit.append_left _
  refine ⟨?_, h.noneEmpty.collect _, ?_, h.numbered, h.serials, ?_, ?_, ?_⟩
  · refine (perm_collect _ _).trans ((h.entries.filter _).trans (.of_eq ?_))
    rw [List.filter_map]
    rfl
  · rw [← h.nextID]
    exact (flat_collect (flat_self s.register) grantIDs).1.nextID.trans
      (LiveStreams.collect_next_id _ _)
  · exact fun o ho => h.known (hperm.mem_iff.mp ho)
  · exact (hperm.map _).nodup_iff.mpr h.once
  · intro termination hmem
    rcases List.mem_cons.mp hmem with rfl | hmem
    · refine ⟨(perm_collected _ _).trans (((h.entries.filter _).map _).trans (.of_eq ?_)), rfl⟩
      rw [List.filter_map, List.map_map]
      rfl
    · exact h.terminated termination hmem

/-- An element is replaced by one with the same image. -/
theorem map_set_same {α β : Type} {f : α → β} {xs : List α} {i : Nat} {x y : α}
    (hx : xs[i]? = some x) (hsame : f y = f x) : (xs.set i y).map f = xs.map f := by
  induction xs generalizing i with
  | nil => rfl
  | cons first rest ih =>
      cases i with
      | zero =>
          cases hx
          rw [List.set_cons_zero, List.map_cons, List.map_cons, hsame]
      | succ i =>
          rw [List.getElem?_cons_succ] at hx
          rw [List.set_cons_succ, List.map_cons, List.map_cons, ih hx]

/-- `Terminate` resets one end. -/
theorem RegisterState.Sound.reset (h : s.Sound) {index : Nat} {termination : Termination Closer}
    {closer : Closer} {rest : List Closer} (ht : s.terminations[index]? = some termination)
    (hpending : termination.pending = closer :: rest) :
    ({ s with
      terminations := s.terminations.set index
        { termination with pending := rest, resets := termination.resets ++ [closer] } } :
      RegisterState Closer).Sound := by
  have hcounted : (s.terminations.set index
      { termination with pending := rest, resets := termination.resets ++ [closer] }).flatMap
        (·.tickets) = s.counted := by
    rw [RegisterState.counted, List.flatMap_def, List.flatMap_def]
    exact congrArg List.flatten (map_set_same ht rfl)
  refine ⟨h.entries, h.noneEmpty, h.nextID, h.numbered, h.serials, ?_, ?_, ?_⟩
  · rw [RegisterState.counted, hcounted]
    exact h.known
  · rw [RegisterState.counted, hcounted]
    exact h.once
  · intro other hother
    rcases List.mem_or_eq_of_mem_set hother with hother | rfl
    · exact h.terminated other hother
    · obtain ⟨hdoomed, hresets⟩ := h.terminated termination (List.mem_of_getElem? ht)
      refine ⟨hdoomed, ?_⟩
      rw [← hresets, hpending, List.append_assoc]
      rfl

theorem register_step_drawn {a : RegisterAction Closer} (hstep : s.step a = some s') :
    s'.drawn = s.drawn + if a.draws then 1 else 0 := by
  cases a with
  | add grantID pair =>
      cases hstep
      by_cases hgrant : grantID = []
      · simp [RegisterAction.draws, hgrant]
      · simp [RegisterAction.draws, hgrant]
  | insert index =>
      obtain ⟨t, -, rfl⟩ := Option.map_eq_some_iff.mp hstep
      rfl
  | release index =>
      obtain ⟨t, -, rfl⟩ := Option.map_eq_some_iff.mp hstep
      rfl
  | terminate grantIDs reason =>
      cases hstep
      rfl
  | reset index =>
      obtain ⟨t, -, hreset⟩ := Option.bind_eq_some_iff.mp hstep
      split at hreset
      · cases hreset
      · cases hreset
        rfl

theorem register_run_drawn {actions : List (RegisterAction Closer)}
    (hrun : run RegisterState.step s actions = some s') :
    s'.drawn = s.drawn + actions.countP (·.draws) := by
  induction actions generalizing s with
  | nil =>
      cases hrun
      rfl
  | cons a rest ih =>
      obtain ⟨middle, hmiddle, hrest⟩ := Option.bind_eq_some_iff.mp hrun
      rw [ih hrest, register_step_drawn hmiddle, List.countP_cons]
      omega

theorem RegisterState.Sound.step {a : RegisterAction Closer} (h : s.Sound)
    (hfew : s.drawn < 2 ^ 64) (hstep : s.step a = some s') : s'.Sound := by
  cases a with
  | add grantID pair =>
      cases hstep
      split
      · exact h
      · exact h.add grantID pair
  | insert index =>
      obtain ⟨t, ht, rfl⟩ := Option.map_eq_some_iff.mp hstep
      exact h.insert hfew ht
  | release index =>
      obtain ⟨t, ht, rfl⟩ := Option.map_eq_some_iff.mp hstep
      exact h.release hfew (List.mem_of_getElem? ht)
  | terminate grantIDs reason =>
      cases hstep
      exact h.terminate grantIDs reason
  | reset index =>
      obtain ⟨termination, ht, hreset⟩ := Option.bind_eq_some_iff.mp hstep
      split at hreset
      · cases hreset
      next closer rest hpending =>
        cases hreset
        exact h.reset ht hpending

theorem sound_new_register : (RegisterState.new : RegisterState Closer).Sound where
  entries := .refl _
  noneEmpty := fun _ _ h => absurd h (by simp [RegisterState.new, Register.empty])
  nextID := rfl
  numbered := fun _ h => absurd h List.not_mem_nil
  serials := List.nodup_nil
  known := List.Subset.refl _
  once := List.nodup_nil
  terminated := fun _ h => absurd h List.not_mem_nil

end Sound

/-- In every run in which fewer than `2 ^ 64` numbers are drawn, the register holds exactly the
pairs that were added and neither released nor terminated since, `Count` and `CountFor` are their
numbers, and no grant has an empty set. Each `Terminate` resets both ends of exactly the pairs that
were registered under the named grants when it took the lock, and returns their number, and no pair
is counted twice. -/
theorem register_exact {Closer : Type} {actions : List (RegisterAction Closer)}
    {s : RegisterState Closer} (hrun : run RegisterState.step .new actions = some s)
    (hfew : actions.countP (·.draws) < 2 ^ 64) :
    s.register.entries.Perm (s.outstanding.map Ticket.entry) ∧
    s.register.count = s.outstanding.length ∧
    (∀ grantID, s.register.countFor grantID =
      (s.outstanding.filter fun t => t.key.grantID = grantID).length) ∧
    (∀ grantID streams, s.register.byGrant.lookup grantID = some streams →
      streams.entries ≠ []) ∧
    (∀ t ∈ s.terminations, t.result = t.tickets.length ∧
      (t.resets ++ t.pending).Perm ((t.tickets.map (·.pair)).flatMap StreamPair.ends)) ∧
    (s.counted.map (·.serial)).Nodup := by
  have hsound : s.drawn < 2 ^ 64 → s.Sound := by
    have hkept : ∀ {state next : RegisterState Closer} {action},
        (state.drawn < 2 ^ 64 → state.Sound) → state.step action = some next →
        next.drawn < 2 ^ 64 → next.Sound := by
      intro state next action h hstep hnext
      have hdrawn := register_step_drawn hstep
      have hbefore : state.drawn < 2 ^ 64 := by omega
      exact (h hbefore).step hbefore hstep
    exact run_invariant (fun h hstep => hkept h hstep) (fun _ => sound_new_register) hrun
  have hdrawn := register_run_drawn hrun
  have hnone : (RegisterState.new : RegisterState Closer).drawn = 0 := rfl
  have h := hsound (by omega)
  refine ⟨h.entries, ?_, ?_, h.noneEmpty, ?_, ?_⟩
  · rw [count_eq, h.entries.length_eq, List.length_map]
  · intro grantID
    rw [count_for_eq, (h.entries.filter _).length_eq, List.filter_map, List.length_map]
    rfl
  · intro t ht
    obtain ⟨hdoomed, hresets⟩ := h.terminated t ht
    refine ⟨?_, ?_⟩
    · rw [Termination.result, hdoomed.length_eq, List.length_map]
    · rw [hresets]
      exact hdoomed.flatMap_right _
  · have honce := h.once
    rw [List.map_append] at honce
    exact (List.nodup_append.mp honce).1

section Runs

/-- Two streams of one grant are terminated, with the grant named twice; then a third is added, and
the release function of the first is called late. -/
def revokedAndBack : List (RegisterAction Nat) :=
  [.add [1] ⟨10, 11⟩, .insert 0, .add [1] ⟨20, 21⟩, .insert 0,
    .terminate [[1], [1]] reasonGrantRevoked, .reset 0, .reset 0, .reset 0, .reset 0,
    .add [1] ⟨30, 31⟩, .insert 0, .release 2]

theorem revoked_and_back_exact :
    ∃ s, run RegisterState.step .new revokedAndBack = some s ∧
      s.outstanding.length = 1 ∧ s.register.count = s.outstanding.length := by
  have hevaluate : (run RegisterState.step .new revokedAndBack).map
      (fun s => s.outstanding.length) = some 1 := by decide +kernel
  obtain ⟨s, hrun, hlength⟩ := Option.map_eq_some_iff.mp hevaluate
  exact ⟨s, hrun, hlength, (register_exact hrun (by decide)).2.1⟩

/-- A stream that comes and goes. -/
def comeAndGo : List (RegisterAction Unit) := [.add [2] ⟨(), ()⟩, .insert 0, .release 0]

variable {s : RegisterState Unit}

/-- The only stream of a grant leaves nothing behind. -/
theorem release_insert (r : Register Unit) (key : Registration) (hnew : key.grantID ∉ r.byGrant)
    (pair : StreamPair Unit) : (r.insert key pair).release key = r := by
  have hnone : r.byGrant.lookup key.grantID = none := AList.lookup_eq_none.mpr hnew
  have hinsert : r.insert key pair =
      { r with
        byGrant := r.byGrant.insert key.grantID ((∅ : StreamSet Unit).insert key.id pair) } := by
    rw [Register.insert, hnone]
    rfl
  have herase : ((∅ : StreamSet Unit).insert key.id pair).erase key.id = ∅ := by
    refine AList.ext ?_
    show List.kerase key.id ((∅ : StreamSet Unit).insert key.id pair).entries = []
    simp
  have hback : (r.byGrant.insert key.grantID ((∅ : StreamSet Unit).insert key.id pair)).erase
      key.grantID = r.byGrant := by
    refine AList.ext ?_
    show List.kerase key.grantID (r.byGrant.insert key.grantID
      ((∅ : StreamSet Unit).insert key.id pair)).entries = r.byGrant.entries
    simp only [AList.entries_insert_of_notMem hnew, List.kerase_cons_eq]
  rw [hinsert, Register.release]
  simp only [AList.lookup_insert, herase, hback, AList.empty_entries, List.length_nil, if_true]

/-- One round changes only the number. -/
theorem run_come_and_go (hflight : s.inFlight = []) (hnew : [2] ∉ s.register.byGrant)
    (hserials : ∀ o ∈ s.outstanding, o.serial ≤ s.drawn) :
    ∃ t, run RegisterState.step s comeAndGo = some
      { s with
        register := { s.register with nextID := s.register.nextID + 1 }
        drawn := s.drawn + 1
        inserted := t :: s.inserted } := by
  refine ⟨⟨s.drawn + 1, ⟨[2], s.register.nextID + 1⟩, ⟨(), ()⟩⟩, ?_⟩
  have hothers : ∀ o ∈ s.outstanding, ¬ o.serial = s.drawn + 1 := by
    intro o ho
    have hle := hserials o ho
    omega
  have hregister := release_insert ⟨s.register.byGrant, s.register.nextID + 1⟩
    ⟨[2], s.register.nextID + 1⟩ hnew ⟨(), ()⟩
  simp only [comeAndGo, run_cons, run_nil, RegisterState.step, hflight, List.getElem?_cons_zero,
    Option.map_some, Option.bind_some, hregister, List.eraseIdx_cons_zero, if_neg,
    List.cons_ne_nil, not_false_eq_true, List.filter_cons]
  simpa using hothers

theorem run_rounds (n : Nat) (hflight : s.inFlight = []) (hnew : [2] ∉ s.register.byGrant)
    (hserials : ∀ o ∈ s.outstanding, o.serial ≤ s.drawn) :
    ∃ s', run RegisterState.step s (List.replicate n comeAndGo).flatten = some s' ∧
      s'.register = ⟨s.register.byGrant, s.register.nextID + UInt64.ofNat n⟩ ∧
      s'.inFlight = [] ∧ s'.outstanding = s.outstanding := by
  induction n generalizing s with
  | zero => exact ⟨s, rfl, by simp, hflight, rfl⟩
  | succ n ih =>
      obtain ⟨t, hround⟩ := run_come_and_go hflight hnew hserials
      obtain ⟨s', hrun, hregister, hflight', houtstanding⟩ :=
        ih (s := { s with
          register := { s.register with nextID := s.register.nextID + 1 }
          drawn := s.drawn + 1
          inserted := t :: s.inserted }) hflight hnew
          fun o ho => (hserials o ho).trans (Nat.le_succ _)
      refine ⟨s', ?_, ?_, hflight', houtstanding⟩
      · rw [List.replicate_succ, List.flatten_cons, run_append, hround]
        exact hrun
      · rw [hregister, UInt64.ofNat_add, UInt64.add_assoc, UInt64.add_comm 1]
        rfl

/-- After `2 ^ 64` calls of `Add` the number of the first stream is given out again, and the new
stream takes the place of the old one in the register. -/
theorem numbers_wrap : ∃ actions : List (RegisterAction Unit), ∃ s,
    run RegisterState.step .new actions = some s ∧
      (s.outstanding.filter fun t => t.key.grantID = [1]).length = 2 ∧
      s.register.countFor [1] = 1 := by
  have hfirst : ∃ s, run RegisterState.step .new [.add [1] ⟨(), ()⟩, .insert 0] = some s ∧
      s.inFlight = [] ∧ s.register.nextID = 1 ∧
      s.register.byGrant = AList.singleton [1] (AList.singleton 1 ⟨(), ()⟩) ∧
      s.outstanding = [⟨1, ⟨[1], 1⟩, ⟨(), ()⟩⟩] ∧ s.drawn = 1 := ⟨_, rfl, rfl, rfl, rfl, rfl, rfl⟩
  obtain ⟨first, hrun, hflight, hnext, hby, houtstanding, hdrawn⟩ := hfirst
  obtain ⟨s, hrounds, hregister, hflight', houtstanding'⟩ :=
    run_rounds (s := first) (2 ^ 64 - 1) hflight (by rw [hby]; decide)
      (by rw [houtstanding, hdrawn]; simp)
  have hzero : s.register.nextID = 0 := by
    rw [hregister, hnext]
    exact (by decide : (1 : UInt64) + UInt64.ofNat (2 ^ 64 - 1) = 0)
  have hbefore : s.register.byGrant = AList.singleton [1] (AList.singleton 1 ⟨(), ()⟩) := by
    rw [hregister, hby]
  have hlast : ∃ s', run RegisterState.step s [.add [1] ⟨(), ()⟩, .insert 0] = some s' ∧
      s'.outstanding = ⟨s.drawn + 1, ⟨[1], 1⟩, ⟨(), ()⟩⟩ :: s.outstanding ∧
      s'.register.countFor [1] = 1 := by
    obtain ⟨register, drawn, inFlight, outstanding, inserted, terminations⟩ := s
    obtain ⟨byGrant, nextID⟩ := register
    dsimp only at hzero hbefore hflight'
    subst hzero hbefore hflight'
    exact ⟨_, rfl, rfl, rfl⟩
  obtain ⟨s', hagain, hboth, hone⟩ := hlast
  have hall : run RegisterState.step .new ([.add [1] ⟨(), ()⟩, .insert 0] ++
      ((List.replicate (2 ^ 64 - 1) comeAndGo).flatten ++ [.add [1] ⟨(), ()⟩, .insert 0])) =
      some s' := by
    rw [run_append, hrun, Option.bind_some, run_append, hrounds, Option.bind_some, hagain]
  refine ⟨_, s', hall, ?_, hone⟩
  rw [hboth, houtstanding', houtstanding]
  rfl

end Runs

end AccessRelay.Relay
