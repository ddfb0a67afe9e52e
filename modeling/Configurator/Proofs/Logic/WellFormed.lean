import Configurator.Proofs.Logic.Run
import Mathlib.Data.List.Nodup

/-!
# Well-formed models

What every run of a model keeps: the supports are variables in the order of
their constraints, the constraints are well made, and all operands are older
than the support that depends on them.
-/

namespace Configurator.Digest.Sha1

/-- A digest is no empty text. -/
theorem hexDigest_ne_empty
    (message : List UInt8) :
    hexDigest message ≠ "" := by
  intro empty
  have listed := congrArg String.toList empty
  simp [hexDigest, hexWord] at listed

end Configurator.Digest.Sha1

namespace Configurator.Logic

open Configurator.Collection Configurator.Linear

theorem Constraint.WellMade.id_ne_empty
    {constraint : Constraint}
    (wellMade : constraint.WellMade) :
    constraint.id ≠ "" := by
  rw [wellMade.content]
  exact Digest.Sha1.hexDigest_ne_empty _

namespace Model

/-- The model is one that requests can lead to. -/
structure WellFormed (model : Model) : Prop where
  /-- Every variable has a name. -/
  named : "" ∉ model.ids
  /-- Only variables are assumed. -/
  assumed_known : ∀ id ∈ model.assumed, id ∈ model.ids
  /-- The constraints are well made. -/
  wellMade : ∀ constraint ∈ model.constraints, constraint.WellMade
  /-- Every support is a variable. -/
  supports_known :
    ∀ constraint ∈ model.constraints, constraint.id ∈ model.ids
  /-- The supports are created in the order of their constraints. -/
  ordered : model.supports.Pairwise model.ids.Precedes
  /-- The operands are older than their support. -/
  older : ∀ constraint ∈ model.constraints, ∀ operand ∈ constraint.operands,
    model.ids.Precedes operand constraint.id

variable {model grown : Model}

theorem wellFormed_empty : empty.WellFormed where
  named := OrderedSet.not_mem_empty _
  assumed_known :=
    fun id member => absurd member (OrderedSet.not_mem_empty id)
  wellMade := fun _ member => nomatch member
  supports_known := fun _ member => nomatch member
  ordered := List.Pairwise.nil
  older := fun _ member => nomatch member

namespace WellFormed

/-- Two different constraints of the model have different ids. -/
theorem id_injective
    (wellFormed : model.WellFormed)
    {left right : Constraint}
    (leftMember : left ∈ model.constraints)
    (rightMember : right ∈ model.constraints)
    (same : left.id = right.id) :
    left = right := by
  have nodup : model.supports.Nodup :=
    wellFormed.ordered.imp fun precedes => precedes.ne
  exact List.inj_on_of_nodup_map nodup leftMember rightMember same

theorem operand_known
    (wellFormed : model.WellFormed)
    {constraint : Constraint}
    (member : constraint ∈ model.constraints)
    {operand : String}
    (mentioned : operand ∈ constraint.operands) :
    operand ∈ model.ids :=
  (wellFormed.older constraint member operand mentioned).mem

theorem id_notMem_operands
    (wellFormed : model.WellFormed)
    {constraint : Constraint}
    (member : constraint ∈ model.constraints) :
    constraint.id ∉ constraint.operands := by
  intro mentioned
  exact (wellFormed.older constraint member constraint.id mentioned).ne rfl

/-! ## Preservation -/

/--
A well-made constraint with known operands can be added under a new id.
-/
theorem append
    (wellFormed : model.WellFormed)
    {constraint : Constraint}
    (wellMade : constraint.WellMade)
    (absent : constraint.id ∉ model.ids)
    (known : ∀ operand ∈ constraint.operands, operand ∈ model.ids) :
    WellFormed
      { model with
        ids := model.ids.insert constraint.id
        constraints := model.constraints ++ [constraint] } := by
  have extended := OrderedSet.extends_insert model.ids constraint.id
  constructor
  · intro unnamed
    rcases OrderedSet.mem_insert.1 unnamed with old | new
    · exact wellFormed.named old
    · exact wellMade.id_ne_empty new.symm
  · intro id member
    exact OrderedSet.mem_of_extends extended
      (wellFormed.assumed_known id member)
  · intro other member
    rcases List.mem_append.1 member with old | new
    · exact wellFormed.wellMade other old
    · rw [List.mem_singleton.1 new]
      exact wellMade
  · intro other member
    rcases List.mem_append.1 member with old | new
    · exact OrderedSet.mem_of_extends extended
        (wellFormed.supports_known other old)
    · rw [List.mem_singleton.1 new]
      exact OrderedSet.mem_insert.2 (Or.inr rfl)
  · show (List.map _ (model.constraints ++ [constraint])).Pairwise _
    rw [List.map_append, List.pairwise_append]
    refine ⟨wellFormed.ordered.imp fun precedes => precedes.extend extended,
      List.pairwise_singleton _ _, ?_⟩
    intro support member newest newestMember
    rcases List.mem_map.1 member with ⟨stored, storedMember, rfl⟩
    rw [List.mem_singleton.1 newestMember]
    exact OrderedSet.precedes_insert
      (wellFormed.supports_known stored storedMember) absent
  · intro other member operand mentioned
    rcases List.mem_append.1 member with old | new
    · exact (wellFormed.older other old operand mentioned).extend extended
    · rw [List.mem_singleton.1 new] at mentioned ⊢
      exact OrderedSet.precedes_insert (known operand mentioned) absent

theorem introduce
    (wellFormed : model.WellFormed)
    {constraint : Constraint}
    (wellMade : constraint.WellMade)
    (introduced : model.introduce constraint = .ok grown) :
    grown.WellFormed := by
  rcases introduce_eq_ok introduced with ⟨_, rfl⟩ | ⟨absent, known, rfl⟩
  · exact wellFormed
  · exact wellFormed.append wellMade absent known

theorem carryOut
    (wellFormed : model.WellFormed)
    {plan : Lowering}
    (wellMade : ∀ constraint ∈ plan.constraints, constraint.WellMade) :
    (model.carryOut plan).2.WellFormed := by
  induction plan generalizing model with
  | done constraint =>
      simp only [Model.carryOut]
      split
      · rename_i grown introduced
        exact wellFormed.introduce (wellMade constraint List.mem_cons_self)
          introduced
      · exact wellFormed
  | refused cause => exact wellFormed
  | after helper rest ih =>
      simp only [Model.carryOut]
      split
      · rename_i grown introduced
        have next :=
          wellFormed.introduce (wellMade helper List.mem_cons_self)
            introduced
        exact ih next fun constraint member =>
          wellMade constraint (List.mem_cons_of_mem _ member)
      · exact wellFormed

theorem declare
    (wellFormed : model.WellFormed)
    {names : List String}
    (listed : grown.ids.toList = model.ids.toList ++ names)
    (fresh : ∀ name ∈ names, name ≠ "" ∧ name ∉ model.ids)
    (sameConstraints : grown.constraints = model.constraints)
    (sameAssumed : grown.assumed = model.assumed) :
    grown.WellFormed := by
  have extended : model.ids.toList <+: grown.ids.toList := by
    rw [listed]
    exact List.prefix_append _ _
  constructor
  · intro unnamed
    rw [OrderedSet.mem_iff, listed] at unnamed
    rcases List.mem_append.1 unnamed with old | new
    · exact wellFormed.named old
    · exact (fresh _ new).1 rfl
  · intro id member
    rw [sameAssumed] at member
    exact OrderedSet.mem_of_extends extended
      (wellFormed.assumed_known id member)
  · rw [sameConstraints]
    exact wellFormed.wellMade
  · rw [sameConstraints]
    intro constraint member
    exact OrderedSet.mem_of_extends extended
      (wellFormed.supports_known constraint member)
  · simp only [supports]
    rw [sameConstraints]
    exact wellFormed.ordered.imp fun precedes => precedes.extend extended
  · rw [sameConstraints]
    intro constraint member operand mentioned
    exact (wellFormed.older constraint member operand mentioned).extend
      extended

theorem apply
    (wellFormed : model.WellFormed)
    (step : Step) :
    (model.apply step).WellFormed := by
  rcases apply_cases model step with
    same | ⟨names, _, listed, fresh, sameConstraints, sameAssumed⟩ |
      ⟨connective, operands, _, _, carried⟩ | ⟨ids, _, known, assumed⟩
  · rw [same]
    exact wellFormed
  · exact wellFormed.declare listed fresh sameConstraints sameAssumed
  · rw [carried]
    exact wellFormed.carryOut fun constraint member =>
      Connective.wellMade_of_mem_lower member
  · rw [assumed]
    refine { wellFormed with assumed_known := ?_ }
    intro id member
    rcases OrderedSet.mem_append.1 member with old | new
    · exact wellFormed.assumed_known id old
    · exact known id new

theorem run
    (wellFormed : model.WellFormed)
    (steps : List Step) :
    (model.run steps).WellFormed := by
  induction steps generalizing model with
  | nil => exact wellFormed
  | cons step rest ih => exact ih (wellFormed.apply step)

end WellFormed

/-- Every model that requests lead to is well formed. -/
theorem wellFormed_run_empty
    (steps : List Step) :
    (empty.run steps).WellFormed :=
  wellFormed_empty.run steps

end Model

end Configurator.Logic
