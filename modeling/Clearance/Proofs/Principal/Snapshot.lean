import Clearance.Proofs.Identifier.Sets
import Clearance.Proofs.Identifier.Text
import Clearance.Proofs.Outcome
import Clearance.Proofs.Store.Keys
import Clearance.Proofs.Table

/-!
# Snapshots and what they answer

Every decision is made on the snapshot of a user, so whatever it is asked must come out as if the
rows of the user had been asked (`Clearance.Principal.IsSnapshotOf`). Two things are taken apart
on the way and put together again.

* The flags of a role are split by scope. One key may be carried in both scopes, so the two
  parts must not be mixed up.
* The attributes are collected by category from a list in which the categories may take turns.
  The values of a category are those of its attributes, in their order
  (`Clearance.lookup_byCategory`).

A stored user is snapshot with the roles in ascending order, which changes nothing in the
answers (`Clearance.Principal.snapshot_exact`).
-/

namespace Clearance

/-! ### Values by category -/

variable {category other : Uuid} {value : String} {collected : List (Uuid × List String)}

/-- A value that is added comes last in its category and changes no other. -/
theorem lookup_collect :
    (collect category value collected).lookup other =
      if other = category then some ((collected.lookup category).getD [] ++ [value])
      else collected.lookup other := by
  induction collected with
  | nil => exact Table.lookup_cons
  | cons entry rest ih =>
    obtain ⟨key, values⟩ := entry
    rw [collect]
    split
    · next hkey =>
      subst hkey
      rw [Table.lookup_cons, Table.lookup_cons, Table.lookup_cons, if_pos rfl, Option.getD_some]
      split <;> rfl
    · next hkey =>
      rw [Table.lookup_cons, Table.lookup_cons, Table.lookup_cons, ih, if_neg (Ne.symm hkey)]
      by_cases hother : other = key
      · rw [if_pos hother, if_neg (hother ▸ hkey), if_pos hother]
      · rw [if_neg hother, if_neg hother]

/-- **The values of a category** are those of its attributes, in their order. -/
theorem lookup_byCategory (attributes : List (Uuid × String)) (category : Uuid) :
    ((byCategory attributes).lookup category).getD [] =
      (attributes.filter (·.1 == category)).map (·.2) := by
  have hfold : ∀ collected : List (Uuid × List String),
      ((attributes.foldl (fun collected entry => collect entry.1 entry.2 collected)
        collected).lookup category).getD [] =
      (collected.lookup category).getD [] ++ (attributes.filter (·.1 == category)).map (·.2) := by
    induction attributes with
    | nil => simp
    | cons entry rest ih =>
      intro collected
      rw [List.foldl_cons, ih, lookup_collect]
      by_cases h : category = entry.1
      · simp [h]
      · simp [h, Ne.symm h]
  simpa [byCategory] using hfold []

/-! ### What a snapshot answers -/

/-- A principal that answers **as the rows of a user** would. -/
structure Principal.IsSnapshotOf (principal : Principal) (user : User) : Prop where
  /-- Its roles are those of the user. -/
  roleIds : ∀ id, id ∈ principal.roleIds ↔ ∃ role ∈ user.roles, role.id = some id
  /-- Its applications are those that the roles belong to. -/
  applicationIds : ∀ id, id ∈ principal.applicationIds ↔
    ∃ role ∈ user.roles, role.applicationId = some id
  /-- Its channels are those that the roles subscribe to. -/
  channelIds : ∀ id, id ∈ principal.channelIds ↔ ∃ role ∈ user.roles, id ∈ role.channelIds
  /-- Its groups are those of the user. -/
  groupIds : ∀ id, id ∈ principal.groupIds ↔ id ∈ user.groupIds
  /-- It has the keys of the rows in the global scope. -/
  globalFlags : ∀ key, key ∈ principal.globalFlags ↔ ∃ role ∈ user.roles, ⟨key, true⟩ ∈ role.flags
  /-- It carries a flag everywhere if there is a row for it in the global scope. -/
  hasGlobal : ∀ key, principal.hasGlobal key = true ↔ ∃ role ∈ user.roles, ⟨key, true⟩ ∈ role.flags
  /-- It carries a flag in the applications of the roles with a row for it in the other scope. -/
  applicationsWith : ∀ key id, id ∈ principal.applicationsWith key ↔
    ∃ role ∈ user.roles, role.applicationId = some id ∧ ⟨key, false⟩ ∈ role.flags
  /-- Its values in a category are those of the user's attributes, in their order. -/
  attributeValues : ∀ category, principal.attributeValues category =
    (user.attributes.filter (·.1 == category)).map (·.2)

theorem Role.mem_flagKeys {role : Role} {key : String} {isGlobal : Bool} :
    key ∈ role.flagKeys isGlobal ↔ ⟨key, isGlobal⟩ ∈ role.flags := by
  rw [flagKeys, List.mem_map]
  constructor
  · rintro ⟨⟨_, scope⟩, hrow, rfl⟩
    obtain ⟨hstored, hscope⟩ := List.mem_filter.mp hrow
    obtain rfl : scope = isGlobal := beq_iff_eq.mp hscope
    exact hstored
  · intro h
    exact ⟨⟨key, isGlobal⟩, List.mem_filter.mpr ⟨h, beq_self_eq_true isGlobal⟩, rfl⟩

namespace Principal

variable {user : User} {id : Uuid}

theorem mem_roles_ofUser {grant : RoleGrant} :
    grant ∈ (ofUser user id).roles ↔
      ∃ role ∈ user.roles, ∃ roleId, role.id = some roleId ∧ role.grant roleId = grant := by
  simp [ofUser, List.mem_filterMap]

/-- What some grant of a snapshot carries is what some role of the user carries. -/
theorem exists_grant_iff (h : ∀ role ∈ user.roles, ∃ roleId, role.id = some roleId)
    {carries : RoleGrant → Prop} {held : Role → Prop}
    (hsame : ∀ role roleId, role.id = some roleId → (carries (role.grant roleId) ↔ held role)) :
    (∃ grant ∈ (ofUser user id).roles, carries grant) ↔ ∃ role ∈ user.roles, held role := by
  constructor
  · rintro ⟨grant, hgrant, hcarries⟩
    obtain ⟨role, hrole, roleId, hid, rfl⟩ := mem_roles_ofUser.mp hgrant
    exact ⟨role, hrole, (hsame role roleId hid).mp hcarries⟩
  · rintro ⟨role, hrole, hheld⟩
    obtain ⟨roleId, hid⟩ := h role hrole
    refine ⟨role.grant roleId, ?_, (hsame role roleId hid).mpr hheld⟩
    exact mem_roles_ofUser.mpr ⟨role, hrole, roleId, hid, rfl⟩

/-- **A snapshot answers as the rows do.** -/
theorem isSnapshotOf_ofUser (h : ∀ role ∈ user.roles, ∃ roleId, role.id = some roleId) :
    (ofUser user id).IsSnapshotOf user where
  roleIds other := by
    rw [Principal.roleIds, List.mem_map]
    refine exists_grant_iff h fun role roleId hid => ?_
    rw [hid, Option.some.injEq]
    rfl
  applicationIds other := by
    rw [Principal.applicationIds, List.mem_filterMap]
    exact exists_grant_iff h fun _ _ _ => Iff.rfl
  channelIds other := by
    rw [Principal.channelIds, List.mem_flatMap]
    exact exists_grant_iff h fun _ _ _ => Iff.rfl
  groupIds _ := Iff.rfl
  globalFlags key := by
    rw [Principal.globalFlags, List.mem_flatMap]
    exact exists_grant_iff h fun _ _ _ => Role.mem_flagKeys
  hasGlobal key := by
    rw [Principal.hasGlobal, List.any_eq_true]
    exact exists_grant_iff h fun _ _ _ => List.contains_iff_mem.trans Role.mem_flagKeys
  applicationsWith key other := by
    rw [Principal.applicationsWith, List.mem_filterMap]
    refine exists_grant_iff h fun role roleId _ => ?_
    rw [Option.ite_none_right_eq_some, List.contains_iff_mem]
    exact (and_congr Role.mem_flagKeys Iff.rfl).trans and_comm
  attributeValues category := lookup_byCategory user.attributes category

/-- The order of the roles does not matter. -/
theorem IsSnapshotOf.congr {principal : Principal} {other : User} (h : principal.IsSnapshotOf user)
    (hroles : ∀ role, role ∈ user.roles ↔ role ∈ other.roles)
    (hgroups : user.groupIds = other.groupIds) (hattributes : user.attributes = other.attributes) :
    principal.IsSnapshotOf other := by
  have hexists : ∀ held : Role → Prop,
      (∃ role ∈ user.roles, held role) ↔ ∃ role ∈ other.roles, held role :=
    fun held => exists_congr fun role => and_congr_left fun _ => hroles role
  exact {
    roleIds := fun id => (h.roleIds id).trans (hexists _)
    applicationIds := fun id => (h.applicationIds id).trans (hexists _)
    channelIds := fun id => (h.channelIds id).trans (hexists _)
    groupIds := fun id => hgroups ▸ h.groupIds id
    globalFlags := fun key => (h.globalFlags key).trans (hexists _)
    hasGlobal := fun key => (h.hasGlobal key).trans (hexists _)
    applicationsWith := fun key id => (h.applicationsWith key id).trans (hexists _)
    attributeValues := fun category => hattributes ▸ h.attributeValues category }

end Principal

/-! ### Loading -/

/-- A user whose roles are **loaded**: each has its identifier, by which it is told. So are the
users of any store that is loaded from rows (`Clearance.Store.isLoaded_ofRows`). -/
structure User.IsLoaded (user : User) : Prop where
  /-- Every role has an identifier. -/
  identified : ∀ role ∈ user.roles, ∃ id, role.id = some id
  /-- Roles with one identifier are the same. -/
  told : ∀ role ∈ user.roles, ∀ other ∈ user.roles, role.id = other.id → role = other

namespace Store

variable {store : Store} {rows : List Entity} {user : User} {role : Role} {id : Uuid}

theorem id_of_roleIn? (h : roleIn? rows id = some role) : role.id = some id := by
  obtain ⟨row, -, hrow⟩ := List.exists_of_findSome?_eq_some h
  cases row with
  | role found =>
    obtain ⟨hid, hfound⟩ := Option.ite_none_right_eq_some.mp hrow
    exact Option.some.inj hfound ▸ hid
  | _ => cases hrow

/-- **Loading a user** loads the roles. -/
theorem isLoaded_ofRows (h : .user user ∈ (ofRows rows).entities) : user.IsLoaded := by
  obtain ⟨row, -, hrow⟩ := List.mem_map.mp h
  have hroles : ∀ role ∈ user.roles, ∃ id, role.id = some id ∧ roleIn? rows id = some role := by
    cases row with
    | user stored =>
      obtain rfl := Entity.user.inj hrow
      intro role hrole
      obtain ⟨id, -, hfound⟩ := List.mem_filterMap.mp hrole
      exact ⟨id, id_of_roleIn? hfound, hfound⟩
    | _ => cases hrow
  refine ⟨fun role hrole => ?_, fun role hrole other hother hid => ?_⟩
  · obtain ⟨id, hid, -⟩ := hroles role hrole
    exact ⟨id, hid⟩
  · obtain ⟨u, hu, hrole⟩ := hroles role hrole
    obtain ⟨v, hv, hother⟩ := hroles other hother
    obtain rfl : u = v := Option.some.inj (hu.symm.trans (hid.trans hv))
    exact Option.some.inj (hrole.symm.trans hother)

theorem id_of_find? {roles : List Role} (h : roles.find? (·.id == some id) = some role) :
    role.id = some id := by
  have htest := List.find?_some h
  exact beq_iff_eq.mp htest

/-- Ordering the roles of a user keeps them. -/
theorem mem_roles_withOrderedRoles (h : user.IsLoaded) :
    role ∈ (withOrderedRoles user).roles ↔ role ∈ user.roles := by
  rw [withOrderedRoles, List.mem_filterMap]
  constructor
  · rintro ⟨id, -, hfound⟩
    exact List.mem_of_find?_eq_some hfound
  · intro hrole
    obtain ⟨id, hid⟩ := h.identified role hrole
    refine ⟨id, Uuid.mem_setOf.mpr (List.mem_filterMap.mpr ⟨role, hrole, hid⟩), ?_⟩
    rcases hfound : user.roles.find? (·.id == some id) with _ | other
    · exact absurd (beq_iff_eq.mpr hid) (List.find?_eq_none.mp hfound role hrole)
    · have hother := List.mem_of_find?_eq_some hfound
      obtain rfl := h.told other hother role hrole ((id_of_find? hfound).trans hid.symm)
      exact hfound

/-- They come in ascending order. -/
theorem pairwise_roles_withOrderedRoles (user : User) (id : Uuid) :
    (Principal.ofUser (withOrderedRoles user) id).roles.Pairwise (·.id.number < ·.id.number) := by
  rw [Principal.ofUser, List.pairwise_filterMap, withOrderedRoles, List.pairwise_filterMap]
  refine (Uuid.pairwise_setOf _).imp fun {u v} huv a ha b hb grant hgrant grant' hgrant' => ?_
  rw [id_of_find? ha] at hgrant
  rw [id_of_find? hb] at hgrant'
  obtain rfl := Option.some.inj hgrant
  obtain rfl := Option.some.inj hgrant'
  exact huv

/-- **A stored user is loaded** as a snapshot with the roles in order, -/
theorem loadPrincipal_of_mem (hopen : store.isOpen = true) (hkeyed : store.IsKeyed)
    (huser : .user user ∈ store.entities) (hid : user.id = some id) :
    store.loadPrincipal id = .ok (Principal.ofUser (withOrderedRoles user) id) := by
  have hfound : store.find? .user id = some (.user user) :=
    hkeyed.find?_eq_some_iff.mpr ⟨huser, rfl, hid⟩
  rw [loadPrincipal, reached, if_pos hopen, hfound]
  rfl

/-- and nobody else can be loaded. -/
theorem loadPrincipal_of_not_mem (hopen : store.isOpen = true)
    (hnone : ∀ entity ∈ store.entities, entity.kind = .user → entity.id ≠ some id) :
    store.loadPrincipal id = .error (.notFound .user id) := by
  have hfound : store.find? .user id = none := IsKeyed.find?_eq_none_iff.mpr hnone
  rw [loadPrincipal, reached, if_pos hopen, hfound]
  rfl

end Store

namespace Principal

/-- **Snapshots.** The snapshot of a user whose roles have identifiers answers as the rows of the
user do. What is loaded for a stored user is that snapshot, with the roles in ascending order.
An identifier without a user is reported as not found. -/
theorem snapshot_exact :
    (∀ (user : User) (id : Uuid), (∀ role ∈ user.roles, ∃ roleId, role.id = some roleId) →
      (ofUser user id).userId = id ∧ (ofUser user id).IsSnapshotOf user) ∧
    (∀ store : Store, store.isOpen = true → store.IsKeyed →
      (∀ user : User, .user user ∈ store.entities → user.IsLoaded) →
      (∀ (user : User) (id : Uuid), .user user ∈ store.entities → user.id = some id →
        ∃ principal, store.loadPrincipal id = .ok principal ∧ principal.userId = id ∧
          principal.IsSnapshotOf user ∧ principal.roles.Pairwise (·.id.number < ·.id.number) ∧
          (∀ grant, grant ∈ principal.roles ↔ grant ∈ (ofUser user id).roles) ∧
          principal.groupIds = (ofUser user id).groupIds ∧
          principal.attributes = (ofUser user id).attributes) ∧
      (∀ id : Uuid, (∀ entity ∈ store.entities, entity.kind = .user → entity.id ≠ some id) →
        store.loadPrincipal id = .error (.notFound .user id))) := by
  refine ⟨fun user id h => ⟨rfl, isSnapshotOf_ofUser h⟩, fun store hopen hkeyed hloaded => ⟨?_, ?_⟩⟩
  · intro user id huser hid
    have huserLoaded := hloaded user huser
    have hroles : ∀ role, role ∈ (Store.withOrderedRoles user).roles ↔ role ∈ user.roles :=
      fun role => Store.mem_roles_withOrderedRoles huserLoaded
    refine ⟨_, Store.loadPrincipal_of_mem hopen hkeyed huser hid, rfl, ?_,
      Store.pairwise_roles_withOrderedRoles user id, ?_, rfl, rfl⟩
    · refine (isSnapshotOf_ofUser fun role hrole => ?_).congr hroles rfl rfl
      exact huserLoaded.identified role ((hroles role).mp hrole)
    · intro grant
      simp only [mem_roles_ofUser, hroles]
  · exact fun id hnone => Store.loadPrincipal_of_not_mem hopen hnone

/-- A key in both scopes, and two categories that take turns. -/
theorem snapshot_exact_interleaved :
    let keeper : Role :=
      { id := some 1, applicationId := some 7, flags := [⟨"can_see_roles", false⟩] }
    let overseer : Role := { id := some 2, flags := [⟨"can_see_roles", true⟩] }
    let user : User :=
      { id := some 9, roles := [overseer, keeper]
        attributes := [(5, "north"), (6, "blue"), (5, "east"), (6, "red"), (5, "north")] }
    let store : Store := { entities := [.user user] }
    (∀ role ∈ user.roles, ∃ roleId, role.id = some roleId) ∧
      (ofUser user 9).hasGlobal "can_see_roles" = true ∧
      (∀ id, id ∈ (ofUser user 9).applicationsWith "can_see_roles" ↔ id = 7) ∧
      (∃ principal, store.loadPrincipal 9 = .ok principal ∧
        principal.attributeValues 5 = ["north", "east", "north"] ∧
        principal.roles.Pairwise (·.id.number < ·.id.number)) ∧
      store.loadPrincipal 8 = .error (.notFound .user 8) := by
  intro keeper overseer user store
  have hroles : ∀ role ∈ user.roles, ∃ roleId, role.id = some roleId := by
    simp [user, keeper, overseer]
  have hkeyed : store.IsKeyed :=
    { identified := by simp [store, user, Entity.id]
      distinct := by simp [store] }
  have hloaded : ∀ stored : User, .user stored ∈ store.entities → stored.IsLoaded := by
    intro stored hstored
    obtain rfl := Entity.user.inj (List.mem_singleton.mp hstored)
    have hother : (2 : Uuid) ≠ 1 := by decide
    exact { identified := hroles, told := by simp [user, keeper, overseer, hother, hother.symm] }
  obtain ⟨-, hsnapshot⟩ := snapshot_exact.1 user 9 hroles
  obtain ⟨hstored, hmissing⟩ := snapshot_exact.2 store rfl hkeyed hloaded
  obtain ⟨principal, hload, -, hanswers, hordered, -⟩ := hstored user 9 List.mem_cons_self rfl
  refine ⟨hroles, ?_, fun id => ?_, ⟨principal, hload, ?_, hordered⟩, hmissing 8 ?_⟩
  · rw [hsnapshot.hasGlobal]
    exact ⟨overseer, by simp [user], by simp [overseer]⟩
  · rw [hsnapshot.applicationsWith]
    simp [user, keeper, overseer, eq_comm]
  · rw [hanswers.attributeValues]
    decide
  · exact List.forall_mem_singleton.mpr fun _ => by decide

end Principal

end Clearance
