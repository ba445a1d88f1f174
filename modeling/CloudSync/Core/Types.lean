/-
The shared types of the sync crates: identifiers, cloud paths, timestamps, file states, cloud
items and change lists, and the provider errors the modelled functions return or inspect. A Rust
string is the sequence of its characters; a timestamp is a `DateTime<Utc>` with chrono's range.
-/
import Mathlib.Tactic

namespace CloudSync

/-- A Rust string. -/
abbrev Str := List Char

/-- Strings are compared by their characters. -/
instance lawfulBEqStr : LawfulBEq Str := inferInstance

/-- File content. -/
abbrev Bytes := List UInt8

/-! ## Identifiers -/

structure AccountId where
  val : Str
deriving DecidableEq

structure FileId where
  val : Str
deriving DecidableEq

/-- A change-feed cursor: a token only the provider can read. -/
abbrev Cursor := Str

/-! ## Cloud paths -/

/-- A path within a provider's file system. -/
structure CloudPath where
  text : Str
deriving DecidableEq

namespace CloudPath

/-- `replace('\\', "/")` -/
def slashed (c : Char) : Char := if c = '\\' then '/' else c

def new (path : Str) : CloudPath :=
  let normalized := if ['/'].isPrefixOf path then path else '/' :: path
  ⟨normalized.map slashed⟩

def root : CloudPath := ⟨['/']⟩

def asStr (p : CloudPath) : Str := p.text

def isRoot (p : CloudPath) : Bool := p.text = ['/']

@[simp] theorem slashed_ne (c : Char) : slashed c ≠ '\\' := by
  unfold slashed; split
  · decide
  · assumption

@[simp] theorem slashed_slashed (c : Char) : slashed (slashed c) = slashed c := by
  have h := slashed_ne c
  generalize slashed c = d at h ⊢
  unfold slashed; rw [if_neg h]

/-- A path made by `new` starts with a slash. -/
theorem new_head (s : Str) : ∃ rest, (new s).text = '/' :: rest := by
  unfold new
  cases s with
  | nil => exact ⟨[], rfl⟩
  | cons c s =>
    by_cases hc : '/' = c
    · subst hc; exact ⟨s.map slashed, by simp [slashed]⟩
    · exact ⟨(c :: s).map slashed, by simp [hc, slashed]⟩

/-- The text of a path made by `new` is a fixed point of `new`. -/
@[simp] theorem new_new (s : Str) : new (new s).text = new s := by
  obtain ⟨rest, hr⟩ := new_head s
  have hpre : ['/'].isPrefixOf (new s).text = true := by rw [hr]; simp
  have hmap : (new s).text.map slashed = (new s).text := by
    simp [new, Function.comp_def]
  show CloudPath.mk ((if ['/'].isPrefixOf (new s).text then (new s).text else '/' :: (new s).text).map slashed) = _
  rw [if_pos hpre, hmap]

end CloudPath

/-! ## Timestamps -/

/-- The Unix times of the first and the last second of `DateTime<Utc>`. -/
def minTimestamp : Int := -8334601228800
def maxTimestamp : Int := 8210266876799

/-- A `DateTime<Utc>`: whole Unix seconds (rounded down) and the nanoseconds after them, which
exceed a second inside a leap second. -/
structure DateTime where
  secs : Int
  nanos : Nat
  lo : minTimestamp ≤ secs
  hi : secs ≤ maxTimestamp
  nanosLt : nanos < 2000000000
deriving DecidableEq

namespace DateTime

def timestamp (t : DateTime) : Int := t.secs

/-- `DateTime::from_timestamp(secs, 0)` -/
def fromTimestamp (secs : Int) : Option DateTime :=
  if h : minTimestamp ≤ secs ∧ secs ≤ maxTimestamp then some ⟨secs, 0, h.1, h.2, by decide⟩ else none

/-- The whole second a timestamp lies in. -/
def floor (t : DateTime) : DateTime := ⟨t.secs, 0, t.lo, t.hi, by decide⟩

@[simp] theorem fromTimestamp_timestamp (t : DateTime) : fromTimestamp t.timestamp = some t.floor := by
  unfold fromTimestamp timestamp
  rw [dif_pos ⟨t.lo, t.hi⟩]; rfl

@[simp] theorem timestamp_floor (t : DateTime) : t.floor.timestamp = t.timestamp := rfl

/-- 1970-01-01T00:00:00Z -/
def epoch : DateTime := ⟨0, 0, by decide, by decide, by decide⟩

end DateTime

/-! ## Files, items and changes -/

inductive FileState
  | synced
  | cloudOnly
  | syncing
  | pending
  | error
  | excluded
  | offlineModified
  | conflict
deriving DecidableEq

/-- An item (file or folder) in cloud storage. -/
structure CloudItem where
  id : FileId
  name : Str
  path : CloudPath
  isFolder : Bool
  size : Option UInt64
  contentHash : Option Str
  modified : DateTime
  created : Option DateTime
  mimeType : Option Str
deriving DecidableEq

/-- One change of a provider's change feed. -/
structure Change where
  item : Option CloudItem
  fileId : FileId
  deleted : Bool
  timestamp : DateTime
deriving DecidableEq

/-- A page of a provider's change feed. -/
structure ChangeList where
  changes : List Change
  cursor : Cursor
  hasMore : Bool
deriving DecidableEq

/-- The provider errors the modelled functions return or inspect. -/
inductive CloudError
  | providerApi (provider message : Str)
  | network (message : Str)
  | fileNotFound (path : Str)
  | io (message : Str)
  | invalidOperation (message : Str)
  | cloudNativeFile (url : Str)
deriving DecidableEq

/-- The error texts. -/
def CloudError.toString : CloudError → Str
  | .providerApi _ message => "Provider API error: ".toList ++ message
  | .network message => "Network error: ".toList ++ message
  | .fileNotFound path => "File not found: ".toList ++ path
  | .io message => "IO error: ".toList ++ message
  | .invalidOperation message => "Invalid operation: ".toList ++ message
  | .cloudNativeFile url => "Cloud-native file cannot be downloaded (open in browser): ".toList ++ url

end CloudSync
