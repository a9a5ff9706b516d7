import TalentTrust.Lib.Run
import TalentTrust.Retention.Policies

/-!
The default policies of the entity types, against the policy store.

`setDefaultPolicyForEntityType` keeps a reference to the stored object. The other
operations change the store alone: `updatePolicy` stores a new object,
`deletePolicy` drops the reference, and `deactivatePolicy` switches the object off
for the default as well. So a default follows the store exactly as long as the
operations leave the ids of the defaults as they are
(`defaults_follow_store_iff`).
-/

namespace TalentTrust.Retention.PolicyEngine

open TalentTrust.Lib

/-! ### Operations -/

inductive Operation where
  /-- The id is drawn. -/
  | createPolicy (config : PolicyConfig) (id : String) (now : Instant)
  | setDefaultPolicyForEntityType (entityType : DataEntityType) (policyId : String)
  | updatePolicy (policyId : String) (updates : PolicyUpdates) (now : Instant)
  | deactivatePolicy (policyId : String) (now : Instant)
  | deletePolicy (policyId : String)
  deriving DecidableEq

/-- An operation that throws leaves the engine as it is. -/
def apply (engine : PolicyEngine) : Operation → PolicyEngine
  | .createPolicy config id now =>
    match engine.createPolicy config id now with
    | .ok (_, engine') => engine'
    | .error _ => engine
  | .setDefaultPolicyForEntityType entityType policyId =>
    match engine.setDefaultPolicyForEntityType entityType policyId with
    | .ok engine' => engine'
    | .error _ => engine
  | .updatePolicy policyId updates now =>
    match engine.updatePolicy policyId updates now with
    | .ok (_, engine') => engine'
    | .error _ => engine
  | .deactivatePolicy policyId now => (engine.deactivatePolicy policyId now).2
  | .deletePolicy policyId => (engine.deletePolicy policyId).2

/-- The default of every entity type, where there is one, is the stored policy of its id, is
active and is about that type. -/
def FollowsStore (engine : PolicyEngine) : Prop :=
  ∀ entityType policy, engine.getDefaultPolicyForEntityType entityType = some policy →
    engine.getPolicy policy.id = some policy ∧ policy.isActive = true ∧ policy.entityType = entityType

/-- A default with the id is the given policy. -/
def Agrees (engine : PolicyEngine) (policyId : String) (given : Option RetentionPolicy) : Prop :=
  ∀ entityType policy, engine.getDefaultPolicyForEntityType entityType = some policy →
    policy.id = policyId → given = some policy

/-- What an operation has to leave alone: the stored policies of the defaults. An id is not drawn
that a default has, unless for that very policy, the updates of a default change nothing in it,
and a new default is active. -/
def Spares (engine : PolicyEngine) : Operation → Prop
  | .createPolicy config id now =>
    validatePolicyConfig config = .ok () → engine.Agrees id (some ⟨config, id, now.date, now.date⟩)
  | .setDefaultPolicyForEntityType entityType policyId =>
    ∀ policy, engine.getPolicy policyId = some policy → policy.entityType = entityType →
      policy.isActive = true
  | .updatePolicy policyId updates now =>
    ∀ policy, engine.getPolicy policyId = some policy →
      validatePolicyConfig (updates.apply policy now).toPolicyConfig = .ok () →
        engine.Agrees policyId (some (updates.apply policy now))
  | .deactivatePolicy policyId _ => engine.Agrees policyId none
  | .deletePolicy policyId => engine.Agrees policyId none

/-! ### References -/

/-- The references of the maps are valid, and a policy is stored under its id. -/
structure Valid (engine : PolicyEngine) : Prop where
  stored : ∀ {id i}, engine.policies.get? id = some i → ∃ policy, engine.objects[i]? = some policy ∧ policy.id = id
  defaults : ∀ {entityType i}, engine.entityDefaults.get? entityType = some i → i < engine.objects.length

theorem valid_empty : Valid empty where
  stored found := by cases found
  defaults found := by cases found

section Engine

variable {engine : PolicyEngine} {policy : RetentionPolicy} {id : String}

theorem getPolicy_eq_some_iff :
    engine.getPolicy id = some policy ↔
      ∃ i, engine.policies.get? id = some i ∧ engine.objects[i]? = some policy :=
  Option.bind_eq_some_iff

theorem Valid.id_of_getPolicy (valid : Valid engine) (found : engine.getPolicy id = some policy) :
    policy.id = id := by
  obtain ⟨i, reference, object⟩ := getPolicy_eq_some_iff.mp found
  obtain ⟨policy', object', named⟩ := valid.stored reference
  rw [object] at object'
  exact Option.some.inj object' ▸ named

/-- The engine with a new object stored under an id. -/
def store (engine : PolicyEngine) (id : String) (policy : RetentionPolicy) : PolicyEngine :=
  { engine with
    objects := engine.objects ++ [policy]
    policies := engine.policies.set id engine.objects.length }

theorem createPolicy_ok {config : PolicyConfig} {now : Instant} {engine' : PolicyEngine}
    (created : engine.createPolicy config id now = .ok (policy, engine')) :
    policy.id = id ∧ engine' = engine.store id policy := by
  unfold createPolicy at created
  split at created
  · cases created
  · cases created
    exact ⟨rfl, rfl⟩

variable (valid : Valid engine)

include valid

theorem updatePolicy_ok {updates : PolicyUpdates} {now : Instant} {engine' : PolicyEngine}
    (updated : engine.updatePolicy id updates now = .ok (policy, engine')) :
    policy.id = id ∧ engine' = engine.store id policy := by
  unfold updatePolicy at updated
  split at updated
  · cases updated
  · rename_i old found
    dsimp only at updated
    split at updated
    · cases updated
    · have named : old.id = id := valid.id_of_getPolicy found
      cases updated
      exact ⟨named, rfl⟩

/-! ### A policy is stored -/

theorem getPolicy_store (id j : String) (policy : RetentionPolicy) :
    (engine.store id policy).getPolicy j = if j = id then some policy else engine.getPolicy j := by
  unfold getPolicy store
  rw [OrderedMap.get?_set]
  split
  · simp
  · cases found : engine.policies.get? j with
    | none => rfl
    | some i =>
      obtain ⟨_, object, -⟩ := valid.stored found
      have inside := (List.getElem?_eq_some_iff.mp object).1
      simp only [Option.bind_some]
      rw [List.getElem?_append_left inside]

theorem getDefault_store (id : String) (policy : RetentionPolicy) (entityType : DataEntityType) :
    (engine.store id policy).getDefaultPolicyForEntityType entityType =
      engine.getDefaultPolicyForEntityType entityType := by
  unfold getDefaultPolicyForEntityType store
  cases found : engine.entityDefaults.get? entityType with
  | none => rfl
  | some i =>
    simp only [Option.bind_some]
    rw [List.getElem?_append_left (valid.defaults found)]

theorem Valid.store (named : policy.id = id) : Valid (engine.store id policy) where
  stored {j i} found := by
    have found' : (engine.policies.set id engine.objects.length).get? j = some i := found
    rw [OrderedMap.get?_set] at found'
    split at found'
    · rename_i same
      cases found'
      exact ⟨policy, List.getElem?_concat_length, named.trans same.symm⟩
    · obtain ⟨policy', object, named'⟩ := valid.stored found'
      exact ⟨policy', (List.getElem?_append_left (List.getElem?_eq_some_iff.mp object).1).trans object, named'⟩
  defaults found := by
    have inside := valid.defaults found
    exact inside.trans_le (by simp [PolicyEngine.store])

omit valid

/-- Where only what is stored under `id` changes, the defaults with that id have to agree. -/
theorem followsStore_iff_agrees {engine' : PolicyEngine} {after : Option RetentionPolicy}
    (follows : FollowsStore engine)
    (defaults : ∀ entityType, engine'.getDefaultPolicyForEntityType entityType =
      engine.getDefaultPolicyForEntityType entityType)
    (getPolicy : ∀ j, engine'.getPolicy j = if j = id then after else engine.getPolicy j) :
    FollowsStore engine' ↔ engine.Agrees id after := by
  constructor
  · intro follows' entityType default held same
    have stored := (follows' entityType default ((defaults entityType).trans held)).1
    rwa [getPolicy, if_pos same] at stored
  · intro agrees entityType default held
    rw [defaults] at held
    obtain ⟨stored, active, typed⟩ := follows entityType default held
    refine ⟨?_, active, typed⟩
    rw [getPolicy]
    split
    · rename_i same
      exact agrees entityType default held same
    · exact stored

theorem followsStore_store_iff (valid : Valid engine) (follows : FollowsStore engine) :
    FollowsStore (engine.store id policy) ↔ engine.Agrees id (some policy) :=
  followsStore_iff_agrees follows (getDefault_store valid id policy)
    fun j => getPolicy_store valid id j policy

/-! ### A policy is switched off -/

/-- The object at `i` is switched off. -/
def switchOff (engine : PolicyEngine) (i : Nat) (policy : RetentionPolicy) (now : Instant) : PolicyEngine :=
  { engine with objects := engine.objects.set i { policy with isActive := false, updatedAt := now.date } }

variable (engine id) in
theorem deactivatePolicy_cases (now : Instant) :
    (engine.getPolicy id = none ∧ (engine.deactivatePolicy id now).2 = engine) ∨
      ∃ i policy, engine.policies.get? id = some i ∧ engine.objects[i]? = some policy ∧
        (engine.deactivatePolicy id now).2 = engine.switchOff i policy now := by
  unfold deactivatePolicy
  cases reference : engine.policies.get? id with
  | none =>
    left
    simp [getPolicy, reference]
  | some i =>
    cases object : engine.objects[i]? with
    | none =>
      left
      simp [getPolicy, reference, object]
    | some policy =>
      right
      exact ⟨i, policy, rfl, object, by simp [getPolicy, reference, object, switchOff]⟩

section SwitchOff

variable {id : String} {i : Nat} {policy : RetentionPolicy} (now : Instant)

theorem Valid.switchOff (valid : Valid engine) (object : engine.objects[i]? = some policy) :
    Valid (engine.switchOff i policy now) where
  stored {j k} found := by
    obtain ⟨policy', object', named⟩ := valid.stored found
    by_cases same : i = k
    · subst same
      rw [object] at object'
      cases object'
      exact ⟨_, List.getElem?_set_self (List.getElem?_eq_some_iff.mp object).1, named⟩
    · exact ⟨policy', (List.getElem?_set_ne same).trans object', named⟩
  defaults found := (valid.defaults found).trans_le (by simp [PolicyEngine.switchOff])

theorem followsStore_switchOff_iff (valid : Valid engine) (follows : FollowsStore engine)
    (reference : engine.policies.get? id = some i) (object : engine.objects[i]? = some policy) :
    FollowsStore (engine.switchOff i policy now) ↔ engine.Agrees id none := by
  have inside := (List.getElem?_eq_some_iff.mp object).1
  have named : policy.id = id := valid.id_of_getPolicy (getPolicy_eq_some_iff.mpr ⟨i, reference, object⟩)
  constructor
  · intro follows' entityType default held same
    exfalso
    obtain ⟨j, position, before⟩ := Option.bind_eq_some_iff.mp held
    by_cases here : i = j
    · subst here
      have after : (engine.switchOff i policy now).getDefaultPolicyForEntityType entityType =
          some { policy with isActive := false, updatedAt := now.date } :=
        Option.bind_eq_some_iff.mpr ⟨i, position, List.getElem?_set_self inside⟩
      exact Bool.false_ne_true (follows' entityType _ after).2.1
    · have after : (engine.switchOff i policy now).getDefaultPolicyForEntityType entityType = some default :=
        Option.bind_eq_some_iff.mpr ⟨j, position, (List.getElem?_set_ne here).trans before⟩
      obtain ⟨stored, active, -⟩ := follows' entityType default after
      have off : (engine.switchOff i policy now).getPolicy id =
          some { policy with isActive := false, updatedAt := now.date } :=
        getPolicy_eq_some_iff.mpr ⟨i, reference, List.getElem?_set_self inside⟩
      rw [same, off] at stored
      cases stored
      exact Bool.false_ne_true active
  · intro agrees entityType default held
    obtain ⟨j, position, held⟩ := Option.bind_eq_some_iff.mp held
    -- the default is another object, since it has another id
    have other : i ≠ j := by
      rintro rfl
      cases agrees entityType policy (Option.bind_eq_some_iff.mpr ⟨i, position, object⟩) named
    have unchanged : engine.objects[j]? = some default := (List.getElem?_set_ne other).symm.trans held
    have before : engine.getDefaultPolicyForEntityType entityType = some default :=
      Option.bind_eq_some_iff.mpr ⟨j, position, unchanged⟩
    obtain ⟨stored, active, typed⟩ := follows entityType default before
    refine ⟨?_, active, typed⟩
    obtain ⟨k, reference', object'⟩ := getPolicy_eq_some_iff.mp stored
    have elsewhere : i ≠ k := by
      rintro rfl
      rw [object] at object'
      cases object'
      cases agrees entityType policy before named
    exact getPolicy_eq_some_iff.mpr ⟨k, reference', (List.getElem?_set_ne elsewhere).trans object'⟩

end SwitchOff

/-! ### A policy is deleted -/

theorem getPolicy_deletePolicy (engine : PolicyEngine) (id j : String) :
    (engine.deletePolicy id).2.getPolicy j = if j = id then none else engine.getPolicy j := by
  unfold getPolicy deletePolicy
  simp only [OrderedMap.get?_erase]
  split <;> rfl

theorem Valid.deletePolicy (valid : Valid engine) (id : String) : Valid (engine.deletePolicy id).2 where
  stored found := valid.stored (OrderedMap.get?_of_erase found)
  defaults found := valid.defaults found

/-! ### A default is set -/

theorem setDefault_cases (engine : PolicyEngine) (entityType : DataEntityType) (id : String) :
    (∃ message, engine.setDefaultPolicyForEntityType entityType id = .error message ∧
        ∀ policy, engine.getPolicy id = some policy → policy.entityType ≠ entityType) ∨
      ∃ i policy, engine.policies.get? id = some i ∧ engine.objects[i]? = some policy ∧
        policy.entityType = entityType ∧ engine.setDefaultPolicyForEntityType entityType id =
          .ok { engine with entityDefaults := engine.entityDefaults.set entityType i } := by
  unfold setDefaultPolicyForEntityType
  split
  · rename_i i policy reference found
    by_cases typed : policy.entityType = entityType
    · right
      obtain ⟨j, reference', object⟩ := getPolicy_eq_some_iff.mp found
      rw [reference] at reference'
      cases reference'
      exact ⟨i, policy, reference, object, typed, by simp [typed]⟩
    · left
      refine ⟨_, if_pos typed, fun policy' found' => ?_⟩
      rw [found] at found'
      cases found'
      exact typed
  · rename_i unknown
    left
    refine ⟨_, rfl, fun policy found => ?_⟩
    obtain ⟨i, reference, -⟩ := getPolicy_eq_some_iff.mp found
    exact absurd found (unknown i policy reference)

theorem getDefault_set (engine : PolicyEngine) (entityType t : DataEntityType) (i : Nat) :
    ({ engine with entityDefaults := engine.entityDefaults.set entityType i } :
        PolicyEngine).getDefaultPolicyForEntityType t =
      if t = entityType then engine.objects[i]? else engine.getDefaultPolicyForEntityType t := by
  unfold getDefaultPolicyForEntityType
  rw [OrderedMap.get?_set]
  split <;> rfl

variable (valid : Valid engine)

include valid

theorem Valid.setDefault (entityType : DataEntityType) {i : Nat}
    (inside : i < engine.objects.length) :
    Valid { engine with entityDefaults := engine.entityDefaults.set entityType i } where
  stored found := valid.stored found
  defaults {t k} found := by
    rw [OrderedMap.get?_set] at found
    split at found
    · cases found
      exact inside
    · exact valid.defaults found

/-! ### Runs -/

theorem Valid.apply (operation : Operation) : Valid (engine.apply operation) := by
  cases operation with
  | createPolicy config id now =>
    simp only [PolicyEngine.apply]
    split
    · rename_i policy engine' created
      obtain ⟨named, rfl⟩ := createPolicy_ok created
      exact valid.store named
    · exact valid
  | setDefaultPolicyForEntityType entityType id =>
    simp only [PolicyEngine.apply]
    rcases setDefault_cases engine entityType id with ⟨message, refused, -⟩ | ⟨i, policy, -, object, -, set⟩
    · rw [refused]
      exact valid
    · rw [set]
      exact valid.setDefault entityType (List.getElem?_eq_some_iff.mp object).1
  | updatePolicy id updates now =>
    simp only [PolicyEngine.apply]
    split
    · rename_i policy engine' updated
      obtain ⟨named, rfl⟩ := updatePolicy_ok valid updated
      exact valid.store named
    · exact valid
  | deactivatePolicy id now =>
    rcases deactivatePolicy_cases engine id now with ⟨-, same⟩ | ⟨i, policy, -, object, off⟩
    · rw [PolicyEngine.apply, same]
      exact valid
    · rw [PolicyEngine.apply, off]
      exact valid.switchOff now object
  | deletePolicy id => exact valid.deletePolicy id

theorem followsStore_apply_iff (follows : FollowsStore engine) (operation : Operation) :
    FollowsStore (engine.apply operation) ↔ engine.Spares operation := by
  cases operation with
  | createPolicy config id now =>
    simp only [PolicyEngine.apply, Spares, PolicyEngine.createPolicy]
    cases validatePolicyConfig config with
    | error message => simp [follows]
    | ok _ =>
      simp only [forall_const]
      exact followsStore_store_iff valid follows
  | setDefaultPolicyForEntityType entityType id =>
    simp only [PolicyEngine.apply, Spares]
    rcases setDefault_cases engine entityType id with
      ⟨message, refused, other⟩ | ⟨i, policy, reference, object, typed, set⟩
    · rw [refused]
      exact iff_of_true follows fun policy found typed => absurd typed (other policy found)
    · have found : engine.getPolicy id = some policy := getPolicy_eq_some_iff.mpr ⟨i, reference, object⟩
      rw [set]
      constructor
      · intro follows' policy' found' _
        rw [found] at found'
        cases found'
        refine (follows' entityType policy ?_).2.1
        rw [getDefault_set, if_pos rfl, object]
      · intro spares t default held
        rw [getDefault_set] at held
        split at held
        · rename_i same
          rw [object] at held
          cases held
          refine ⟨?_, spares policy found typed, typed.trans same.symm⟩
          rw [valid.id_of_getPolicy found]
          exact found
        · exact follows t default held
  | updatePolicy id updates now =>
    simp only [PolicyEngine.apply, Spares, PolicyEngine.updatePolicy]
    cases engine.getPolicy id with
    | none => simp [follows]
    | some policy =>
      simp only [Option.some.injEq, forall_eq']
      cases validatePolicyConfig (updates.apply policy now).toPolicyConfig with
      | error message => simp [follows]
      | ok _ =>
        simp only [forall_const]
        exact followsStore_store_iff valid follows
  | deactivatePolicy id now =>
    rcases deactivatePolicy_cases engine id now with ⟨missing, same⟩ | ⟨i, policy, reference, object, off⟩
    · rw [PolicyEngine.apply, same]
      refine iff_of_true follows fun entityType default held named => ?_
      rw [← missing, ← named]
      exact (follows entityType default held).1
    · rw [PolicyEngine.apply, off]
      exact followsStore_switchOff_iff now valid follows reference object
  | deletePolicy id => exact followsStore_iff_agrees follows (fun _ => rfl) (getPolicy_deletePolicy engine id)

end Engine

/-- Records that name no stored policy expire by the default of their entity type, or by the
built-in period if there is none. -/
def UsesDefault (engine : PolicyEngine) : Prop :=
  ∀ entityType policyId createdAt, engine.policyOf policyId = none →
    engine.calculateExpirationDate entityType policyId createdAt =
      match createdAt.time with
      | some t => Date.ofTime (t + ((engine.getDefaultPolicyForEntityType entityType).elim
          (defaultPeriod entityType) fun policy => policy.period).duration)
      | none => ⟨none⟩

theorem usesDefault (engine : PolicyEngine) : UsesDefault engine := by
  intro entityType policyId createdAt unnamed
  unfold calculateExpirationDate
  rw [unnamed]
  cases engine.getDefaultPolicyForEntityType entityType <;> rfl

/-- In every state of a run the defaults follow the store, and are what records expire by, iff
every operation spares the stored policies of the defaults. -/
theorem defaults_follow_store_iff (operations : List Operation) :
    Along apply Spares empty operations ↔ ∀ before, before <+: operations →
      FollowsStore (run apply empty before) ∧ UsesDefault (run apply empty before) := by
  have start : Valid empty ∧ FollowsStore empty :=
    ⟨valid_empty, fun entityType policy held => by cases held⟩
  have keeps : ∀ engine operation, Valid engine ∧ FollowsStore engine → Spares engine operation →
      Valid (apply engine operation) ∧ FollowsStore (apply engine operation) :=
    fun engine operation inv spares =>
      ⟨inv.1.apply operation, (followsStore_apply_iff inv.1 inv.2 operation).mpr spares⟩
  have good : ∀ engine, Valid engine ∧ FollowsStore engine → FollowsStore engine ∧ UsesDefault engine :=
    fun engine inv => ⟨inv.2, usesDefault engine⟩
  exact along_iff_always keeps good
    (fun engine operation inv after => (followsStore_apply_iff inv.1 inv.2 operation).mp after.1) start

def documents : PolicyConfig where
  name := "Documents"
  description := ""
  entityType := .document
  period := .thirtyDays
  classification := .internal
  archivalType := .coldStorage
  encryptArchive := false
  allowPermanentRetention := false
  isActive := true

/-- A default policy is raised to a year, and documents still expire after thirty days. -/
theorem default_keeps_old_period :
    let now : Instant := ⟨0, by decide, by decide⟩
    let engine := run apply empty
      [.createPolicy documents "p1" now, .setDefaultPolicyForEntityType .document "p1",
        .updatePolicy "p1" { period := some .oneYear } now]
    (engine.getPolicy "p1").map (·.period) = some .oneYear ∧
      (engine.getDefaultPolicyForEntityType .document).map (·.period) = some .thirtyDays ∧
      engine.calculateExpirationDate .document none now.date =
        Date.ofTime (RetentionPeriod.duration .thirtyDays) ∧ ¬ FollowsStore engine := by
  refine ⟨by decide, by decide, by decide, fun follows => ?_⟩
  have stored := (follows .document _ rfl).1
  revert stored
  decide

end TalentTrust.Retention.PolicyEngine
