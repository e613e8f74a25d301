import NanoMQ.RulePost

/-!
# What a POST request adds

A POST request only adds: new rules stand behind the old ones, with ids of their own, and flags are
set, whether the request succeeds or not.
-/

namespace NanoMQ

open ByteBuffer

variable {ext : RuleExternals} {rawsql : Option Bytes} {cr cr' cr'' : ConfRule} {rc : RestCode}

structure Grown (cr cr' : ConfRule) : Prop where
  rules : cr.rules <+: cr'.rules
  option : cr.option ⊆ cr'.option
  distinct : cr.Distinct → cr'.Distinct

theorem Grown.refl (cr : ConfRule) : Grown cr cr :=
  ⟨List.prefix_rfl, Finset.Subset.refl _, id⟩

theorem Grown.trans (h : Grown cr cr') (h' : Grown cr' cr'') : Grown cr cr'' :=
  ⟨h.rules.trans h'.rules, h.option.trans h'.option, h'.distinct ∘ h.distinct⟩

/-- Nothing but flags and the handle differ. -/
theorem grown_of_rules (hrules : cr'.rules = cr.rules) (hoption : cr.option ⊆ cr'.option) :
    Grown cr cr' where
  rules := by rw [hrules]
  option := hoption
  distinct := by
    intro h
    rwa [ConfRule.Distinct, hrules]

theorem grown_flag (cr : ConfRule) (flag : RuleEng) :
    Grown cr { cr with option := insert flag cr.option } :=
  grown_of_rules rfl (Finset.subset_insert _ _)

theorem grown_handle (cr : ConfRule) (rdb : Bool) : Grown cr { cr with rdb := rdb } :=
  grown_of_rules rfl (Finset.Subset.refl _)

theorem distinct_append (h : cr.Distinct) (sql : Bytes) (action : RuleAction) :
    (cr.append ext sql action).Distinct := by
  rw [ConfRule.Distinct, ConfRule.append, List.map_append, List.nodup_append]
  refine ⟨h, List.nodup_singleton _, ?_⟩
  intro i hi j hj
  obtain ⟨r, hr, rfl⟩ := List.mem_map.mp hi
  obtain rfl := List.mem_singleton.mp hj
  exact (ext.fresh cr.rules).2 r hr

theorem grown_append (sql : Bytes) (action : RuleAction) :
    Grown cr (cr.append ext sql action) where
  rules := List.prefix_append _ _
  option := Finset.Subset.refl _
  distinct := fun h => distinct_append h sql action

theorem postRulesSqlite_grown {params : List (Option Bytes × Json)}
    (h : postRulesSqlite ext rawsql cr params = some (cr', rc)) : Grown cr cr' := by
  induction params generalizing cr with
  | nil =>
    obtain ⟨rfl, rfl⟩ := Prod.mk.inj (Option.some.inj h)
    exact grown_flag _ _
  | cons param rest ih =>
    obtain ⟨name, -, ⟨-, hrest⟩ | ⟨-, table, -, ⟨-, rfl, -⟩ | ⟨-, sql, -, hadd⟩⟩⟩ :=
      postRulesSqlite_cons h
    · exact ih hrest
    · exact Grown.refl _
    · rcases hadd with ⟨-, hrules, hoption, -⟩ | ⟨-, rdb, hrest⟩
      · exact grown_of_rules hrules hoption.ge
      · exact ((grown_append sql _).trans (grown_handle _ _)).trans (ih hrest)

theorem postRulesDb_grown {kind : DbKind} {params : List (Option Bytes × Json)}
    (h : postRulesDb kind ext rawsql cr params = some (cr', rc)) : Grown cr cr' := by
  obtain ⟨p, known, -, ⟨-, rfl, -⟩ | ⟨-, sql, -, ⟨-, rfl, -⟩ | ⟨-, rfl⟩⟩⟩ := postRulesDb_cases h
  · exact Grown.refl _
  · exact Grown.refl _
  · exact (grown_append sql _).trans (grown_flag _ _)

theorem postRulesRepub_grown {params : List (Option Bytes × Json)}
    (h : postRulesRepub ext rawsql cr params = some (cr', rc)) : Grown cr cr' := by
  obtain ⟨p, -, ⟨-, rfl, -⟩ | ⟨-, sql, rfl⟩⟩ := postRulesRepub_cases h
  · exact Grown.refl _
  · exact (grown_append sql _).trans (grown_flag _ _)

theorem postAction_grown {action : Json} (h : postAction ext rawsql cr action = some (cr', rc)) :
    Grown cr cr' := by
  obtain ⟨name, -, h⟩ := postAction_cases h
  split at h
  · exact postRulesRepub_grown h
  · exact postRulesSqlite_grown h
  · exact postRulesDb_grown h
  · obtain ⟨rfl, -⟩ := h
    exact Grown.refl _

theorem postActions_grown {actions : List Json}
    (h : postActions ext rawsql cr actions = some (cr', rc)) : Grown cr cr' := by
  induction actions generalizing cr with
  | nil =>
    obtain ⟨rfl, -⟩ := Prod.mk.inj (Option.some.inj h)
    exact Grown.refl _
  | cons action rest ih =>
    obtain ⟨⟨cr₁, rc₁⟩, hfirst, h⟩ := Option.bind_eq_some_iff.mp h
    have hgrown := postAction_grown hfirst
    split_ifs at h with hcode
    · exact hgrown.trans (ih h)
    · obtain ⟨rfl, -⟩ := Prod.mk.inj (Option.some.inj h)
      exact hgrown

/-- Whatever a request asks for, it adds rules behind those that are there. -/
theorem postRules_grown {body : Option Json} {answer : RuleAnswer}
    (h : postRules ext cr body = some (cr', answer)) : Grown cr cr' := by
  rw [postRules] at h
  split at h
  · obtain ⟨rfl, -⟩ := Prod.mk.inj (Option.some.inj h)
    exact Grown.refl _
  · obtain ⟨⟨cr₁, rc₁⟩, hdone, h⟩ := Option.bind_eq_some_iff.mp h
    have hgrown := postActions_grown hdone
    split_ifs at h with hcode
    · obtain ⟨r, -, hr⟩ := Option.map_eq_some_iff.mp h
      obtain ⟨rfl, -⟩ := Prod.mk.inj hr
      exact hgrown
    · obtain ⟨rfl, -⟩ := Prod.mk.inj (Option.some.inj h)
      exact hgrown

end NanoMQ
