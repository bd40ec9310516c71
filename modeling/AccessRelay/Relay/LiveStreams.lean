import AccessRelay.Encoding.BigEndian

/-!
# The register of live streams

`LiveStreams` of `internal/relay/authorization`: the running streams, by the grant that
authorized them. The map of maps is kept as one list of entries, each under the grant and the
number it was registered with. Every operation here is one critical section of the register's
mutex; resetting the streams that `Terminate` collected happens outside it and belongs to the
caller.
-/

namespace AccessRelay.Relay

open Encoding

/-- The two ends of one joined stream. -/
structure StreamPair (Closer : Type) where
  operator : Closer
  agent : Closer
  deriving DecidableEq

/-- What the release function returned by `Add` remembers. -/
structure Registration where
  grantID : Bytes
  id : UInt64
  deriving DecidableEq

/-- A registered pair. -/
structure LiveEntry (Closer : Type) where
  key : Registration
  pair : StreamPair Closer
  deriving DecidableEq

/-- The running streams, and the number given out last. -/
structure LiveStreams (Closer : Type) where
  entries : List (LiveEntry Closer)
  nextID : UInt64
  deriving DecidableEq

namespace LiveStreams

variable {Closer : Type}

/-- `NewLiveStreams`. -/
def empty : LiveStreams Closer := ⟨[], 0⟩

/-- Take one pair out of the register. -/
def remove (l : LiveStreams Closer) (key : Registration) : LiveStreams Closer :=
  { l with entries := l.entries.filter fun e => e.key ≠ key }

/-- `Add`: register a joined stream. A stream without a grant is not registered, and releasing it
does nothing. The number is drawn just before the lock is taken, and nothing else reads it. -/
def add (l : LiveStreams Closer) (grantID : Bytes) (pair : StreamPair Closer) :
    LiveStreams Closer × Option Registration :=
  if grantID = [] then (l, none)
  else
    let key : Registration := ⟨grantID, l.nextID + 1⟩
    (⟨⟨key, pair⟩ :: (l.remove key).entries, l.nextID + 1⟩, some key)

/-- The release function that `Add` returned. -/
def release (l : LiveStreams Closer) : Option Registration → LiveStreams Closer
  | none => l
  | some key => l.remove key

/-- The streams of one grant. -/
def streamsOf (l : LiveStreams Closer) (grantID : Bytes) : List (StreamPair Closer) :=
  (l.entries.filter fun e => e.key.grantID = grantID).map (·.pair)

/-- The register without the streams of one grant. -/
def drop (l : LiveStreams Closer) (grantID : Bytes) : LiveStreams Closer :=
  { l with entries := l.entries.filter fun e => e.key.grantID ≠ grantID }

/-- The critical section of `Terminate`: collect the streams of the named grants and forget
them. -/
def collect (l : LiveStreams Closer) : List Bytes → List (StreamPair Closer) × LiveStreams Closer
  | [] => ([], l)
  | grantID :: rest =>
      let result := (l.drop grantID).collect rest
      (l.streamsOf grantID ++ result.1, result.2)

/-- An entry survives the removal of another key. -/
theorem mem_remove {l : LiveStreams Closer} {key : Registration} {e : LiveEntry Closer} :
    e ∈ (l.remove key).entries ↔ e ∈ l.entries ∧ e.key ≠ key := by
  simp [remove]

/-- Collecting leaves exactly the streams of other grants. -/
theorem mem_collect_entries {l : LiveStreams Closer} {grantIDs : List Bytes}
    {e : LiveEntry Closer} :
    e ∈ (l.collect grantIDs).2.entries ↔ e ∈ l.entries ∧ e.key.grantID ∉ grantIDs := by
  induction grantIDs generalizing l with
  | nil => simp [collect]
  | cons grantID rest ih =>
      simp only [collect, ih, drop, List.mem_filter, decide_eq_true_eq, List.mem_cons, not_or,
        and_assoc]

/-- Collecting returns exactly the streams of the named grants. -/
theorem mem_collect_streams {l : LiveStreams Closer} {grantIDs : List Bytes}
    {pair : StreamPair Closer} :
    pair ∈ (l.collect grantIDs).1 ↔
      ∃ e ∈ l.entries, e.key.grantID ∈ grantIDs ∧ e.pair = pair := by
  induction grantIDs generalizing l with
  | nil => simp [collect]
  | cons grantID rest ih =>
      simp only [collect, List.mem_append, ih]
      constructor
      · intro h
        rcases h with hfirst | ⟨e, he, hrest, hpair⟩
        · obtain ⟨e, he, hpair⟩ := List.mem_map.mp hfirst
          obtain ⟨hmem, hgrant⟩ := List.mem_filter.mp he
          exact ⟨e, hmem, by simp [of_decide_eq_true hgrant], hpair⟩
        · exact ⟨e, (List.mem_filter.mp he).1, List.mem_cons_of_mem _ hrest, hpair⟩
      · intro h
        obtain ⟨e, he, hgrant, hpair⟩ := h
        by_cases hfirst : e.key.grantID = grantID
        · exact .inl (List.mem_map.mpr ⟨e, List.mem_filter.mpr ⟨he, by simp [hfirst]⟩, hpair⟩)
        · have hrest : e.key.grantID ∈ rest := by simpa [hfirst] using hgrant
          exact .inr ⟨e, List.mem_filter.mpr ⟨he, by simp [hfirst]⟩, hrest, hpair⟩

@[simp] theorem collect_next_id (l : LiveStreams Closer) (grantIDs : List Bytes) :
    (l.collect grantIDs).2.nextID = l.nextID := by
  induction grantIDs generalizing l with
  | nil => rfl
  | cons grantID rest ih => exact ih (l.drop grantID)

end LiveStreams

end AccessRelay.Relay
