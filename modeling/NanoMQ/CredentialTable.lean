import NanoMQ.JsonAccess

/-!
# The table of credentials

`conf_auth` keeps user names and passwords in two vectors and their number in `count`. The vectors
are read by index up to `count`, so a table whose count is larger than its vectors is read past
their end: `none` stands for such a read. `set_auth_config` takes the count of the new table from
the size of the array it is given and leaves out the entries it cannot use.
-/

namespace NanoMQ

open ByteBuffer

structure ConfAuth where
  count : ℕ
  usernames : List Bytes
  passwords : List Bytes
  deriving DecidableEq

/-- The count is the length of both vectors. -/
structure ConfAuth.Consistent (auth : ConfAuth) : Prop where
  usernames : auth.count = auth.usernames.length
  passwords : auth.count = auth.passwords.length

/-- A loop that reads a vector at every index below `count`. -/
def readVector (v : List Bytes) : ℕ → Option (List Bytes)
  | 0 => some []
  | i + 1 => (readVector v i).bind (fun front => v[i]?.map (fun s => front ++ [s]))

def ConfAuth.read (auth : ConfAuth) : Option ConfAuth := do
  let usernames ← readVector auth.usernames auth.count
  let passwords ← readVector auth.passwords auth.count
  return ⟨auth.count, usernames, passwords⟩

/-- `reload_auth_config`: the strings of the old table are freed, those of the new one copied. -/
def reloadAuthConfig (cur new : ConfAuth) : Option ConfAuth := do
  let _ ← cur.read
  let copy ← new.read
  return copy

variable {N : Type}

/-- The user name and password of an entry that has both as strings. -/
def credentials (entry : Json N) : Option (Bytes × Bytes) :=
  match entry.getStringValue (ascii "username"), entry.getStringValue (ascii "password") with
  | some username, some password => some (username, password)
  | _, _ => none

def newAuth (json : Json N) : ConfAuth :=
  ⟨json.children.length, (json.children.filterMap credentials).map Prod.fst,
    (json.children.filterMap credentials).map Prod.snd⟩

/-- `set_auth_config`: the new table is loaded, and its own strings are freed again. -/
def setAuthConfig (json : Json N) (auth : ConfAuth) : Option ConfAuth := do
  let auth ← reloadAuthConfig auth (newAuth json)
  let _ ← (newAuth json).read
  return auth

theorem readVector_of_le {v : List Bytes} {count : ℕ} (h : count ≤ v.length) :
    readVector v count = some (v.take count) := by
  induction count with
  | zero => rfl
  | succ i ih =>
      have hi : i < v.length := h
      rw [readVector, ih (Nat.le_of_lt hi), List.getElem?_eq_getElem hi, List.take_add_one,
        List.getElem?_eq_getElem hi]
      rfl

theorem readVector_of_lt {v : List Bytes} {count : ℕ} (h : v.length < count) :
    readVector v count = none := by
  induction count with
  | zero => exact absurd h (Nat.not_lt_zero _)
  | succ i ih =>
      rw [readVector]
      by_cases hi : v.length < i
      · rw [ih hi]
        rfl
      · rw [readVector_of_le (by omega), List.getElem?_eq_none (by omega)]
        rfl

theorem ConfAuth.Consistent.read {auth : ConfAuth} (h : auth.Consistent) :
    auth.read = some auth := by
  rw [ConfAuth.read, readVector_of_le h.usernames.le, readVector_of_le h.passwords.le,
    h.usernames, List.take_length, ← h.usernames, h.passwords, List.take_length, ← h.passwords]
  rfl

theorem read_newAuth_none {json : Json N}
    (h : (json.children.filterMap credentials).length < json.children.length) :
    (newAuth json).read = none := by
  have hlen : (newAuth json).usernames.length < (newAuth json).count := by
    simpa only [newAuth, List.length_map] using h
  rw [ConfAuth.read, readVector_of_lt hlen]
  rfl

theorem setAuthConfig_of_consistent {json : Json N} {auth : ConfAuth} (hauth : auth.Consistent)
    (hnew : (newAuth json).Consistent) : setAuthConfig json auth = some (newAuth json) := by
  simp only [setAuthConfig, reloadAuthConfig, hauth.read, hnew.read]
  rfl

theorem setAuthConfig_none {json : Json N} (auth : ConfAuth)
    (h : (json.children.filterMap credentials).length < json.children.length) :
    setAuthConfig json auth = none := by
  have hread := read_newAuth_none h
  cases hauth : auth.read <;> simp [setAuthConfig, reloadAuthConfig, hread, hauth]

/-- The table is right after an update exactly if every entry of the array has a user name and a
password. -/
theorem setAuthConfig_right_iff (entries : List (Json N)) (auth : ConfAuth) (h : auth.Consistent) :
    (∃ auth', setAuthConfig (.array entries) auth = some auth' ∧ auth'.Consistent ∧
        auth'.usernames.zip auth'.passwords = entries.filterMap credentials) ↔
      ∀ entry ∈ entries, (credentials entry).isSome := by
  have hle := List.length_filterMap_le credentials entries
  rw [← List.filterMap_length_eq_length]
  constructor
  · rintro ⟨auth', hset, -⟩
    by_contra hne
    have hshort : ((Json.array entries).children.filterMap credentials).length <
        (Json.array entries).children.length := Nat.lt_of_le_of_ne hle hne
    rw [setAuthConfig_none auth hshort] at hset
    cases hset
  · intro hlen
    have hnew : (newAuth (.array entries)).Consistent := by
      constructor
      · rw [newAuth, List.length_map]
        exact hlen.symm
      · rw [newAuth, List.length_map]
        exact hlen.symm
    exact ⟨_, setAuthConfig_of_consistent h hnew, hnew, (List.zip_of_prod rfl rfl).symm⟩

def emptyAuth : ConfAuth := ⟨0, [], []⟩

theorem emptyAuth_consistent : emptyAuth.Consistent := ⟨rfl, rfl⟩

def credentialEntry : Json :=
  .object [(ascii "username", .string (ascii "u")), (ascii "password", .string (ascii "p"))]

/-- One usable entry. -/
theorem setAuthConfig_right_entry :
    ∃ auth', setAuthConfig (.array [credentialEntry]) emptyAuth = some auth' ∧ auth'.Consistent ∧
      auth'.usernames.zip auth'.passwords = [credentialEntry].filterMap credentials := by
  apply (setAuthConfig_right_iff [credentialEntry] emptyAuth emptyAuth_consistent).mpr
  intro entry hentry
  rw [List.mem_singleton.mp hentry]
  rfl

/-- With an entry that has no password, the count is one more than the vectors hold, and the copy
reads past their end. -/
theorem setAuthConfig_reads_past_end :
    let entries := [credentialEntry, .object [(ascii "username", .string (ascii "v"))]]
    newAuth (.array entries) = ⟨2, [ascii "u"], [ascii "p"]⟩ ∧
      setAuthConfig (.array entries) emptyAuth = none := ⟨rfl, rfl⟩

end NanoMQ
