import Mathlib.Data.Nat.Notation

/-!
# Users and their histories

The rows of `users`, `user_status_history` and `user_role_history`.
-/

namespace HotelBackend.Users

inductive UserRole where
  | user
  | admin
  deriving DecidableEq, Repr

inductive UserStatus where
  | active
  | inactive
  deriving DecidableEq, Repr

/-- Who changed a role. -/
inductive RoleActorType where
  | user
  | cli
  deriving DecidableEq, Repr

/-- A row of `users`. -/
structure User where
  id : ℕ
  email : String
  displayName : String
  role : UserRole
  status : UserStatus
  emailVerifiedAt : ℕ
  deriving DecidableEq, Repr

/-- A row of `user_status_history`. -/
structure UserStatusHistory where
  id : ℕ
  userId : ℕ
  actorUserId : ℕ
  fromStatus : UserStatus
  toStatus : UserStatus
  reason : String
  deriving DecidableEq, Repr

/-- A row of `user_role_history`. -/
structure UserRoleHistory where
  id : ℕ
  userId : ℕ
  actorType : RoleActorType
  actorUserId : Option ℕ
  fromRole : UserRole
  toRole : UserRole
  reason : String
  deriving DecidableEq, Repr

end HotelBackend.Users
