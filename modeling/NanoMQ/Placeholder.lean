import NanoMQ.Conf
import NanoMQ.Substitution

/-!
# Placeholders in access-control topics

`replacePlaceholder` is the copying loop of `replace_placeholder`: it searches the rest of the
string with `strstr`, copies what precedes the occurrence and then the replacement, and goes on
behind the occurrence. `replaceTopic` runs it for `${clientid}` and then, on its result, for
`${username}`. The loop computes the substitution of the general library, which is what every later
argument about it uses.
-/

namespace NanoMQ

open ByteBuffer Substitution

def placeholderClientid : Bytes := ascii "$\x7bclientid\x7d"

def placeholderUsername : Bytes := ascii "$\x7busername\x7d"

/-- The copying loop at `p`. Every turn moves `p` behind an occurrence, so the length of the string
bounds the turns. -/
def replaceLoop (placeholder replacement : Bytes) : ℕ → Bytes → Bytes
  | 0, p => p
  | fuel + 1, p =>
      match strstr placeholder p with
      | none => p
      | some i => p.take i ++ (replacement ++
          replaceLoop placeholder replacement fuel (p.drop (i + placeholder.length)))

def replacePlaceholder (origin placeholder replacement : Bytes) : Bytes :=
  replaceLoop placeholder replacement origin.length origin

def replaceField (topic placeholder : Bytes) : Option Bytes → Bytes
  | none => topic
  | some value =>
      if (strstr placeholder topic).isSome then replacePlaceholder topic placeholder value
      else topic

def replaceTopic (origin : Option Bytes) (param : ConnParam) : Option Bytes :=
  origin.map (fun topic => replaceField (replaceField topic placeholderClientid param.clientid)
    placeholderUsername param.username)

theorem replaceLoop_eq_substitute {placeholder : Bytes} (hne : placeholder ≠ [])
    (replacement : Bytes) (fuel : ℕ) (p : Bytes) (hfuel : p.length ≤ fuel) :
    replaceLoop placeholder replacement fuel p = substitute placeholder replacement p := by
  induction fuel generalizing p with
  | zero =>
      obtain rfl : p = [] := List.eq_nil_of_length_eq_zero (Nat.le_zero.mp hfuel)
      rfl
  | succ fuel ih =>
      cases hs : strstr placeholder p with
      | none => rw [replaceLoop, hs, substitute_of_strstr_none hs]
      | some i =>
          rw [replaceLoop, hs, substitute_of_strstr_some hne hs]
          simp only [ih _ (length_drop_match_le hne i hfuel)]

theorem replacePlaceholder_eq_substitute {placeholder : Bytes} (hne : placeholder ≠ [])
    (origin replacement : Bytes) :
    replacePlaceholder origin placeholder replacement = substitute placeholder replacement origin :=
  replaceLoop_eq_substitute hne replacement origin.length origin le_rfl

/-- The `strstr` guard of `replace_topic` saves an allocation and changes nothing else. -/
theorem replaceField_some {placeholder : Bytes} (hne : placeholder ≠ []) (topic value : Bytes) :
    replaceField topic placeholder (some value) = substitute placeholder value topic := by
  rw [replaceField, replacePlaceholder_eq_substitute hne]
  split_ifs with h
  · rfl
  · rw [substitute_of_strstr_none (by simpa using h)]

theorem placeholderClientid_ne_nil : placeholderClientid ≠ [] := by decide

theorem placeholderUsername_ne_nil : placeholderUsername ≠ [] := by decide

theorem replaceTopic_some (p : Bytes) (param : ConnParam) (c u : Bytes)
    (hc : param.clientid = some c) (hu : param.username = some u) :
    replaceTopic (some p) param =
      some (substitute placeholderUsername u (substitute placeholderClientid c p)) := by
  rw [replaceTopic, Option.map_some, hc, hu, replaceField_some placeholderClientid_ne_nil,
    replaceField_some placeholderUsername_ne_nil]

theorem replaceTopic_isSome (p : Bytes) (param : ConnParam) :
    ∃ q, replaceTopic (some p) param = some q := ⟨_, rfl⟩

end NanoMQ
