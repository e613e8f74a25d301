import NanoMQ.RulePut

/-!
# What the parameters of an action change

The parameters of one action are written into the action of the rule up to the first unknown one.
An unknown one releases the data, except for a `sqlite` rule, which keeps what it got so far.
`RuleAction.Becomes` says this for any number of actions.
-/

namespace NanoMQ

open ByteBuffer KeyedUpdate

def ForwordType.knows : ForwordType → Option Bytes × Json → Bool
  | .repub => repubSchema.knows
  | .sqlite => sqliteSchema.knows
  | .db _ => dbSchema.knows
  | .fdb => fun _ => false

def Json.isFor (action : Json) (type : ForwordType) : Bool :=
  (action.getStringValue (ascii "name")).bind ForwordType.ofName = some type

/-- The action has the given parameters, as `read` reads those of a `repub` action. -/
def RuleAction.Updated (read : RepubField → Json → Json) (a : RuleAction)
    (params : List (Option Bytes × Json)) (b : RuleAction) : Prop :=
  match a with
  | .repub (some p) => ∃ q, b = .repub (some q) ∧ repubSchema.Updated read p params q
  | .sqlite s => ∃ t, b = .sqlite t ∧ sqliteSchema.Updated sqliteSchema.stored s params t
  | .db kind (some p) => ∃ q, b = .db kind (some q) ∧ dbSchema.Updated dbSchema.stored p params q
  | _ => b = a

def RuleAction.Idle (a : RuleAction) (params : List (Option Bytes × Json)) : Prop :=
  match a with
  | .repub (some p) => repubSchema.Idle p params
  | .sqlite s => sqliteSchema.Idle s params
  | .db _ (some p) => dbSchema.Idle p params
  | _ => True

namespace RuleAction

variable {read : RepubField → Json → Json} {a b c : RuleAction}
  {params more : List (Option Bytes × Json)}

theorem updated_nil : a.Updated read [] a := by
  rcases a with (_ | p) | s | ⟨kind, _ | p⟩ | _
  · rfl
  · exact ⟨p, rfl, Schema.updated_nil⟩
  · exact ⟨s, rfl, Schema.updated_nil⟩
  · rfl
  · exact ⟨p, rfl, Schema.updated_nil⟩
  · rfl

theorem Updated.trans (h : a.Updated read params b) (h' : b.Updated read more c) :
    a.Updated read (params ++ more) c := by
  rcases a with (_ | p) | s | ⟨kind, _ | p⟩ | _
  · obtain rfl : b = .repub none := h
    exact h'
  · obtain ⟨q, rfl, hq⟩ := h
    obtain ⟨r, rfl, hr⟩ := h'
    exact ⟨r, rfl, hq.trans hr⟩
  · obtain ⟨t, rfl, ht⟩ := h
    obtain ⟨u, rfl, hu⟩ := h'
    exact ⟨u, rfl, ht.trans hu⟩
  · obtain rfl : b = .db kind none := h
    exact h'
  · obtain ⟨q, rfl, hq⟩ := h
    obtain ⟨r, rfl, hr⟩ := h'
    exact ⟨r, rfl, hq.trans hr⟩
  · obtain rfl : b = .fdb := h
    exact h'

theorem Updated.same (h : a.Updated read params b) :
    b.forwordType = a.forwordType ∧ b.isReleased = a.isReleased := by
  rcases a with (_ | p) | s | ⟨kind, _ | p⟩ | _
  · obtain rfl : b = .repub none := h
    exact ⟨rfl, rfl⟩
  · obtain ⟨q, rfl, -⟩ := h
    exact ⟨rfl, rfl⟩
  · obtain ⟨t, rfl, -⟩ := h
    exact ⟨rfl, rfl⟩
  · obtain rfl : b = .db kind none := h
    exact ⟨rfl, rfl⟩
  · obtain ⟨q, rfl, -⟩ := h
    exact ⟨rfl, rfl⟩
  · obtain rfl : b = .fdb := h
    exact ⟨rfl, rfl⟩

/-- An update that changes nothing is one in which everything is given as it stands. -/
theorem Updated.eq_iff (h : a.Updated RepubField.stored params b) : b = a ↔ a.Idle params := by
  rcases a with (_ | p) | s | ⟨kind, _ | p⟩ | _
  · exact iff_of_true h trivial
  · obtain ⟨q, rfl, hq⟩ := h
    rw [RuleAction.repub.injEq, Option.some_inj]
    exact hq.eq_iff
  · obtain ⟨t, rfl, ht⟩ := h
    rw [RuleAction.sqlite.injEq]
    exact ht.eq_iff
  · exact iff_of_true h trivial
  · obtain ⟨q, rfl, hq⟩ := h
    rw [RuleAction.db.injEq, Option.some_inj, and_iff_right rfl]
    exact hq.eq_iff
  · exact iff_of_true h trivial

theorem idle_nil : a.Idle [] := by
  rcases a with (_ | p) | s | ⟨kind, _ | p⟩ | _ <;> first | trivial | exact nofun

end RuleAction

/-! ### One action -/

section Parse

variable {φ ρ : Type*} [DecidableEq φ] {schema : Schema Bytes φ Json ρ Json} {p q : ρ}
  {params : List (Option Bytes × Json)} {rc : RestCode}

theorem putParse_spec (h : putParse schema params p = some (q, rc)) :
    schema.Updated schema.stored p (params.takeWhile schema.knows) q ∧
      rc = if params.all schema.knows then .succeed else .reqParamError := by
  obtain ⟨⟨q', ok⟩, hfill, heq⟩ := Option.map_eq_some_iff.mp h
  obtain ⟨rfl, rfl⟩ := Prod.mk.inj heq
  obtain ⟨hupdated, rfl⟩ := Schema.fill_spec hfill
  exact ⟨hupdated, rfl⟩

end Parse

/-- What an update makes of an action: an unknown parameter releases the data of all but a `sqlite`
action. -/
def RuleAction.Becomes (a : RuleAction) (breaks : Bool) (params : List (Option Bytes × Json))
    (b : RuleAction) : Prop :=
  if breaks = true ∧ a.forwordType ≠ .sqlite then
    b.forwordType = a.forwordType ∧ a.isReleased = false ∧ b.isReleased = true
  else a.Updated RepubField.stored params b

section Becomes

variable {a b c : RuleAction} {params more : List (Option Bytes × Json)} {broken : Bool}

theorem RuleAction.Becomes.forwordType (h : a.Becomes broken params b) :
    b.forwordType = a.forwordType := by
  rw [Becomes] at h
  split_ifs at h
  · exact h.1
  · exact h.same.1

theorem RuleAction.becomes_nil_iff : a.Becomes false [] b ↔ b = a := by
  rw [Becomes, if_neg (by simp)]
  constructor
  · intro h
    exact h.eq_iff.mpr idle_nil
  · rintro rfl
    exact updated_nil

theorem RuleAction.Updated.becomes (h : a.Updated RepubField.stored params b)
    (h' : b.Becomes broken more c) : a.Becomes broken (params ++ more) c := by
  obtain ⟨htype, hreleased⟩ := h.same
  rw [Becomes, htype, hreleased] at h'
  rw [Becomes]
  split_ifs at h' ⊢
  · exact h'
  · exact h.trans h'

/-- The action stays as it is exactly if its data is not released and nothing else is given. -/
theorem RuleAction.Becomes.eq_iff (h : a.Becomes broken params b) :
    b = a ↔ a.Idle params ∧ (broken = true → a.forwordType = .sqlite) := by
  rw [Becomes] at h
  split_ifs at h with hbroken
  · refine iff_of_false ?_ (fun h => hbroken.2 (h.2 hbroken.1))
    rintro rfl
    rw [h.2.1] at h
    exact absurd h.2.2 (by decide)
  · rw [h.eq_iff, and_iff_left]
    intro htrue
    by_contra hne
    exact hbroken ⟨htrue, hne⟩

end Becomes

variable {params : List (Option Bytes × Json)} {rc : RestCode}

theorem becomes_releasedOnError {φ ρ : Type*} [DecidableEq φ] {schema : Schema Bytes φ Json ρ Json}
    {mk : Option ρ → RuleAction} {p : ρ} {done : ρ × RestCode}
    (htype : ∀ d, (mk d).forwordType = (mk none).forwordType)
    (hreleased : ∀ d, (mk d).isReleased = d.isNone) (hne : (mk none).forwordType ≠ .sqlite)
    (hupdated : ∀ params q, schema.Updated schema.stored p params q →
      (mk (some p)).Updated RepubField.stored params (mk (some q)))
    (h : putParse schema params p = some done) :
    (done.2 = .succeed ↔ params.all schema.knows = true) ∧
      (mk (some p)).Becomes (!params.all schema.knows) (params.takeWhile schema.knows)
        (mk (releasedOnError done)) := by
  obtain ⟨q, rc⟩ := done
  obtain ⟨hq, rfl⟩ := putParse_spec h
  cases params.all schema.knows with
  | false =>
    refine ⟨by simp, ?_⟩
    rw [RuleAction.Becomes, if_pos ⟨rfl, (htype _).symm ▸ hne⟩]
    exact ⟨(htype _).trans (htype _).symm, hreleased _, hreleased _⟩
  | true =>
    refine ⟨by simp, ?_⟩
    rw [RuleAction.Becomes, if_neg (fun h => absurd h.1 (by decide))]
    exact hupdated _ _ hq

theorem RuleAction.parse_spec {a b : RuleAction} (h : a.parse params = some (b, rc)) :
    (rc = .succeed ↔ params.all a.forwordType.knows = true) ∧
      a.Becomes (!params.all a.forwordType.knows) (params.takeWhile a.forwordType.knows) b := by
  have hdb : ∀ {kind : DbKind} {data : Option DbParams},
      (data.bind fun p => (putParse dbSchema params p).map fun done =>
        (RuleAction.db kind (releasedOnError done), done.2)) = some (b, rc) →
      (rc = .succeed ↔ params.all dbSchema.knows = true) ∧
        (RuleAction.db kind data).Becomes (!params.all dbSchema.knows)
          (params.takeWhile dbSchema.knows) b := by
    intro kind data h
    obtain ⟨p, rfl, h⟩ := Option.bind_eq_some_iff.mp h
    obtain ⟨done, hdone, heq⟩ := Option.map_eq_some_iff.mp h
    obtain ⟨rfl, rfl⟩ := Prod.mk.inj heq
    exact @becomes_releasedOnError _ _ _ _ _ (RuleAction.db kind) p done (fun _ => rfl)
      (fun d => by cases d <;> rfl) nofun (fun _ q hq => ⟨q, rfl, hq⟩) hdone
  cases a with
  | repub data =>
    obtain ⟨p, rfl, h⟩ := Option.bind_eq_some_iff.mp h
    obtain ⟨done, hdone, heq⟩ := Option.map_eq_some_iff.mp h
    obtain ⟨rfl, rfl⟩ := Prod.mk.inj heq
    exact @becomes_releasedOnError _ _ _ _ _ RuleAction.repub p done (fun _ => rfl)
      (fun d => by cases d <;> rfl) nofun (fun _ q hq => ⟨q, rfl, hq⟩) hdone
  | sqlite table =>
    obtain ⟨⟨t, code⟩, hdone, heq⟩ := Option.map_eq_some_iff.mp h
    obtain ⟨rfl, rfl⟩ := Prod.mk.inj heq
    obtain ⟨hupdated, rfl⟩ := putParse_spec hdone
    refine ⟨?_, ?_⟩
    · show _ ↔ params.all sqliteSchema.knows = true
      cases params.all sqliteSchema.knows <;> simp
    · rw [Becomes, if_neg (fun h => h.2 rfl)]
      exact ⟨t, rfl, hupdated⟩
  | db kind data =>
    cases kind with
    | mysql => exact hdb h
    | postgresql => exact hdb h
    | timescaledb => exact hdb h
  | fdb => cases h

theorem putAction_cases {target t : NewRule} {action : Json} {type : ForwordType}
    (htype : target.rule.action.forwordType = type) (h : putAction target action = some (t, rc)) :
    (action.isFor type = false ∧ t = target ∧ rc ≠ .succeed) ∨
      (action.isFor type = true ∧ ∃ b, t = target.store b ∧
        (rc = .succeed ↔ action.params.all type.knows = true) ∧
        target.rule.action.Becomes (!action.params.all type.knows)
          (action.params.takeWhile type.knows) b) := by
  obtain ⟨name, hname, h⟩ := Option.bind_eq_some_iff.mp h
  have hfor : action.isFor type = decide (ForwordType.ofName name = some type) := by
    simp [Json.isFor, hname]
  rw [htype] at h
  split_ifs at h with hmatch
  · obtain ⟨⟨b, code⟩, hparse, heq⟩ := Option.map_eq_some_iff.mp h
    obtain ⟨rfl, rfl⟩ := Prod.mk.inj heq
    have hspec := RuleAction.parse_spec hparse
    rw [htype] at hspec
    exact Or.inr ⟨by simp [hfor, hmatch], b, rfl, hspec⟩
  · obtain ⟨rfl, rfl⟩ := Prod.mk.inj (Option.some.inj h)
    exact Or.inl ⟨by simp [hfor, hmatch], rfl, by decide⟩

end NanoMQ
