import NanoMQ.RuleConf
import Mathlib.Data.Rat.Defs

/-!
# Reading a JSON request

The handlers of the REST interface read a request with `getNumberValue`, `getBoolValue` and
`getStringValue`. All three look a member up by its name, without regard to case and taking the
first that fits, as cJSON does, and give nothing if it is missing or has another type. A number of
cJSON is a double, and converted to the type of the variable that it is assigned to.
-/

namespace NanoMQ

open ByteBuffer

def toLower (c : UInt8) : UInt8 := if 65 ≤ c ∧ c ≤ 90 then c + 32 else c

/-- `strcasecmp(a, b) == 0`. -/
def strcaseEq (a b : Bytes) : Bool := a.map toLower == b.map toLower

namespace Json

variable {N : Type}

def getObjectItem (json : Json N) (name : Bytes) : Option (Json N) :=
  match json with
  | .object members => (members.find? (fun m => strcaseEq m.1 name)).map Prod.snd
  | _ => none

/-- `cJSON_GetArraySize` and `cJSON_GetArrayItem` go over the children of an item. -/
def children : Json N → List (Json N)
  | .array items => items
  | .object members => members.map Prod.snd
  | _ => []

def getNumberValue (json : Json N) (name : Bytes) : Option N :=
  match json.getObjectItem name with
  | some (.number n) => some n
  | _ => none

def getBoolValue (json : Json N) (name : Bytes) : Option Bool :=
  match json.getObjectItem name with
  | some (.bool b) => some b
  | _ => none

def getStringValue (json : Json N) (name : Bytes) : Option Bytes :=
  match json.getObjectItem name with
  | some (.string s) => some s
  | _ => none

/-- The conversion of a double to an integer cuts the fraction off. -/
def truncated (x : ℚ) : ℤ := x.num.tdiv x.den

theorem truncated_intCast (n : ℤ) : truncated n = n := by
  rw [truncated, Rat.num_intCast, Rat.den_intCast]
  exact Int.tdiv_one n

def isObject : Json N → Bool
  | .object _ => true
  | _ => false

def isString : Json N → Bool
  | .string _ => true
  | _ => false

/-- `valuestring`, a null pointer for anything but a string. -/
def valuestring : Json N → Option Bytes
  | .string s => some s
  | _ => none

/-- `valueint`: a number as far as an `int` can hold it, 1 for `true` and 0 for the rest. -/
def valueint : Json → ℤ
  | .number n => max (-2 ^ 31) (min (2 ^ 31 - 1) n)
  | .bool true => 1
  | _ => 0

def isTrue : Json N → Bool
  | .bool b => b
  | _ => false

/-- What `cJSON_ArrayForEach` goes over, with the `string` of each item, which the items of an array
do not have. -/
def named : Json N → List (Option Bytes × Json N)
  | .array items => items.map (fun v => (none, v))
  | .object members => members.map (fun m => (some m.1, m.2))
  | _ => []

def stringOrNull : Option Bytes → Json N
  | some s => .string s
  | none => .null

/-- The object that a series of `cJSON_Add...ToObject` calls builds. -/
def record (fields : List (String × Json N)) : Json N :=
  .object (fields.map (fun f => (ascii f.1, f.2)))

def DistinctNames (fields : List (String × Json N)) : Prop :=
  (fields.map (fun f => (ascii f.1).map toLower)).Nodup

theorem getObjectItem_record {fields : List (String × Json N)} (hd : DistinctNames fields) {i : ℕ}
    {name : String} {v : Json N} (h : fields[i]? = some (name, v)) :
    (record fields).getObjectItem (ascii name) = some v := by
  induction fields generalizing i with
  | nil => exact absurd h (by simp)
  | cons f fields ih =>
      have hd' := List.nodup_cons.mp hd
      cases i with
      | zero =>
          obtain rfl : f = (name, v) := by simpa using h
          simp [record, getObjectItem, strcaseEq]
      | succ i =>
          rw [List.getElem?_cons_succ] at h
          have hne : strcaseEq (ascii f.1) (ascii name) = false := by
            have hmem : (ascii name).map toLower ∈
                fields.map (fun f => (ascii f.1).map toLower) :=
              List.mem_map_of_mem (List.mem_of_getElem? h)
            rw [strcaseEq, beq_eq_false_iff_ne]
            intro heq
            apply hd'.1
            show (ascii f.1).map toLower ∈ _
            rw [heq]
            exact hmem
          have hrest := ih hd'.2 h
          simp only [record, getObjectItem] at hrest ⊢
          rw [List.map_cons, List.find?_cons_of_neg (by simp [hne]), hrest]

theorem getObjectItem_record_none {fields : List (String × Json N)} {name : String} {v : Json N}
    (hd : DistinctNames ((name, v) :: fields)) :
    (record fields).getObjectItem (ascii name) = none := by
  have hnot := (List.nodup_cons.mp hd).1
  rw [record, getObjectItem, Option.map_eq_none_iff, List.find?_eq_none]
  intro m hm hsame
  obtain ⟨f, hf, rfl⟩ := List.mem_map.mp hm
  apply hnot
  have heq : (ascii f.1).map toLower = (ascii name).map toLower := by
    simpa [strcaseEq] using hsame
  show (ascii name).map toLower ∈ _
  rw [← heq]
  exact List.mem_map_of_mem hf

section

variable {fields : List (String × Json N)} (hd : DistinctNames fields) (i : ℕ) {name : String}

include hd

theorem getBoolValue_record {b : Bool} (h : fields[i]? = some (name, .bool b)) :
    (record fields).getBoolValue (ascii name) = some b := by
  rw [getBoolValue, getObjectItem_record hd h]

theorem getNumberValue_record {n : N} (h : fields[i]? = some (name, .number n)) :
    (record fields).getNumberValue (ascii name) = some n := by
  rw [getNumberValue, getObjectItem_record hd h]

theorem getStringValue_record {v : Option Bytes} (h : fields[i]? = some (name, stringOrNull v)) :
    (record fields).getStringValue (ascii name) = v := by
  rw [getStringValue, getObjectItem_record hd h]
  cases v <;> rfl

end

end Json

structure HttpAnswer where
  status : ℕ
  body : Json

def errorResponse (status : ℕ) (code : ℤ) : HttpAnswer :=
  ⟨status, Json.record [("code", .number code)]⟩

end NanoMQ
