import HotelBackend.Auth.Promises

/-!
# An active administrator remains

Two administrators who switch each other off would each see the other active. They do not: each has
locked the administrators it counts, so of two that are counted one is still there at the commit
(`wp_assertDeactivationAllowed`), and the last cannot be switched off. No commit of the system loses the
last active administrator (`Access.Step`), so no run does.
-/

namespace HotelBackend.Users

open HotelBackend.Theory
open HotelBackend.Theory.Transactions
open HotelBackend.Auth

/-- The number of active administrators. -/
def activeAdmins (db : AuthDb) : ℕ := Table.affected db.users UsersService.isActiveAdmin

theorem activeAdmins_pos {db : AuthDb} : 1 ≤ activeAdmins db ↔ db.access.HasActiveAdmin := Table.affected_pos

/-- **Once there is an active administrator there is always one, and a call that is refused changes nothing.** -/
theorem activeAdmin_remains (cfg : AuthConfig) {s : Sys AuthDb AuthKey AuthSupply AuthError AuthAnswer AuthCall}
    (h : (authSystem cfg).Reachable (fun _ _ => True) s) :
    (∀ as s', (authSystem cfg).run s as = some s' → 1 ≤ activeAdmins s.db → 1 ≤ activeAdmins s'.db) ∧
    ∀ a t as s' i e, (authSystem cfg).exec s a = some t → (authSystem cfg).run t as = some s' →
      s'.proc a.program = some (i, .rolledBack e) → t.db = s.db := by
  have hpromised := authSystem_promised h
  constructor
  · intro as s' hr hadmin
    rw [activeAdmins_pos] at hadmin ⊢
    exact hpromised.run_induction (I := fun db => db.access.HasActiveAdmin) (fun i => authCall_promises cfg i)
      (fun _ _ _ _ _ heffect => heffect.step.admins) hr hadmin
  · intro a t as s' i e he hr hrolled
    exact db_of_rolledBack (fun i => authCall_promises cfg i) hpromised he hr hrolled

/-- Two administrators, each switched off by the other at once: the one call is rolled back for the lock the other holds. -/
def mutualDeactivation : List (Act AuthSupply AuthCall) :=
  let deactivate (actorUserId targetUserId : ℕ) : AuthCall := .updateStatus ⟨actorUserId, targetUserId, .inactive, "leaving"⟩ .inOrder .inOrder
  let x : AuthSupply := ⟨1, "", "", 0⟩
  [.start 0 (deactivate 1 2), .start 1 (deactivate 2 1), .step 0 x, .step 1 x, .step 0 x, .step 1 x, .abort 1] ++ List.replicate 7 (.step 0 x)

def twoAdmins : List User := [⟨1, "ada@example.com", "Ada", .admin, .active, 0⟩, ⟨2, "bob@example.com", "Bob", .admin, .active, 0⟩]

theorem mutualDeactivation_run : ((authSystem (.thirtyDays id)).run (Sys.start (AuthDb.opening twoAdmins [])) mutualDeactivation).map
    (fun s => s.db.users.map (·.status)) = some [.active, .inactive] := by rfl

theorem activeAdmin_remains_mutual : ∃ s, (authSystem (.thirtyDays id)).run (Sys.start (AuthDb.opening twoAdmins [])) mutualDeactivation = some s ∧
    s.db.users.map (·.status) = [.active, .inactive] ∧ 1 ≤ activeAdmins s.db := by
  obtain ⟨s, hs, hstatus⟩ := Option.map_eq_some_iff.1 mutualDeactivation_run
  have hstart : (authSystem (.thirtyDays id)).Reachable (fun _ _ => True) (Sys.start (AuthDb.opening twoAdmins [])) :=
    .init ⟨_, ⟨twoAdmins, [], by decide, rfl⟩, rfl⟩
  exact ⟨s, hs, hstatus, (activeAdmin_remains (.thirtyDays id) hstart).1 _ s hs (by decide)⟩

end HotelBackend.Users
