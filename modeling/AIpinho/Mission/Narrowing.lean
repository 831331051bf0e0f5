import AIpinho.Mission.Authority
import Mathlib.Data.List.Sort

/-!
# Narrowed children

A child contract is made from its parent and from what a caller wants less of. It is frozen,
and then it goes through the same checks as a child that somebody else has made.
-/

namespace AIpinho.Mission

open Lib

/-- The arguments of `narrowed_child`. -/
structure Narrowing where
  requestedCapabilities : Option (List String) := none
  authorizedCapabilities : Option (List String) := none
  localResources : Option (List MissionResourceScope) := none
  remoteResources : Option (List MissionResourceScope) := none
  /-- Constraints beside those of the parent. -/
  additionalConstraints : List MissionConstraint := []
  /-- Validations beside those of the parent. -/
  additionalValidationRequirements : List String := []
  /-- Requirements beside those of the parent. -/
  additionalCompletionRequirements : List String := []
  allowLimitedCompletion : Option Bool := none

def orderedUnique (services : MissionServices) (values : List String) : List String :=
  ((values.map services.strip).filter (· ≠ "")).dedup.insertionSort (· ≤ ·)

/-- The child before it is frozen. -/
def narrowed (services : MissionServices) (parent : MissionContract) (narrowing : Narrowing) :
    MissionContract :=
  { parent with
    authority :=
      { requestedCapabilities := orderedUnique services
          (narrowing.requestedCapabilities.getD parent.authority.requestedCapabilities)
        authorizedCapabilities := orderedUnique services
          (narrowing.authorizedCapabilities.getD parent.authority.authorizedCapabilities)
        sourceRefs := parent.authority.sourceRefs
        explicitEvidence := parent.authority.explicitEvidence }
    localResources := narrowing.localResources.getD parent.localResources
    remoteResources := narrowing.remoteResources.getD parent.remoteResources
    negativeConstraints := parent.negativeConstraints ++ narrowing.additionalConstraints
    completion :=
      { validationRequirements := orderedUnique services
          (parent.completion.validationRequirements ++
            narrowing.additionalValidationRequirements)
        completionRequirements := orderedUnique services
          (parent.completion.completionRequirements ++
            narrowing.additionalCompletionRequirements)
        allowLimitedCompletion :=
          narrowing.allowLimitedCompletion.getD parent.completion.allowLimitedCompletion }
    revision := parent.revision + 1
    parentAuthoritySha256 := some parent.authoritySha256
    authoritySha256 := "pending" }

def freeze (services : MissionServices) (contract : MissionContract) : MissionContract :=
  { contract with authoritySha256 := authoritySha256 services contract }

def narrowedChild (services : MissionServices) (parent : MissionContract)
    (narrowing : Narrowing) : Except String MissionContract := do
  let child := freeze services (narrowed services parent narrowing)
  validateChildContract services parent child
  pure child

variable {services : MissionServices} {parent child : MissionContract} {narrowing : Narrowing}

/-- A child that is returned passes the verification and the checks against its parent. -/
theorem narrowed_child_is_valid
    (h : narrowedChild services parent narrowing = .ok child) :
    verify services child = true ∧ validateChildContract services parent child = .ok () := by
  unfold narrowedChild at h
  obtain ⟨hvalid, hchild⟩ := checks_bind_ok_iff.mp h
  cases hchild
  refine ⟨?_, hvalid⟩
  unfold validateChildContract at hvalid
  obtain ⟨⟨-, hverify⟩, -⟩ := demand_bind_ok_iff.mp hvalid
  exact hverify

/-- A validation beside those of the parent. -/
def withTests : Narrowing where
  additionalValidationRequirements := ["tests"]

/-- The child of the sample with the validation. -/
theorem narrowed_child_is_valid_withTests : verify sampleServices (freeze sampleServices
        (narrowed sampleServices sampleContract withTests)) = true ∧
      validateChildContract sampleServices sampleContract (freeze sampleServices
        (narrowed sampleServices sampleContract withTests)) = .ok () := by
  have hreturned : narrowedChild sampleServices sampleContract withTests =
      .ok (freeze sampleServices (narrowed sampleServices sampleContract withTests)) := by rfl
  exact narrowed_child_is_valid hreturned

end AIpinho.Mission
