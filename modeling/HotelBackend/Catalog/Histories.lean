import HotelBackend.Common.Strings
import HotelBackend.Catalog.RoomPromises

/-!
# The history of the catalogue

What holds in every state that calls of the catalogue can reach, over a pool of any number of connections
and in any interleaving of their statements.

* `references_kept`: whatever refers to a row of the catalogue has it.
* `rooms_serial`: a room is what its creation and then its accepted `PATCH`es made of it, one for each
  version, in the order of the versions they named. So of `PATCH`es that name one version one is accepted.
* `answers_hold`: an accepted call does what it answers at the moment of its commit.
* `deleted_rooms_gone`: of a room that was deleted nothing is there again.
-/

namespace HotelBackend.Catalog

open HotelBackend.Theory
open HotelBackend.Theory.Transactions
open HotelBackend.Rooms (RoomStatus RoomTime RoomTimeStatus)
open HotelBackend.Files

variable {n : ℕ}

/-- The calls of the catalogue at some moment of a run. -/
abbrev CatalogSys (n : ℕ) := Sys (CatalogDb n) (CatalogRow × Fin n) CatalogSupply CatalogError CatalogAnswer (CatalogCall n)

/-- Call `p` was accepted with the answer. -/
def Accepted (s : CatalogSys n) (p : ℕ) (request : CatalogRequest) (answer : CatalogAnswer) : Prop :=
  ∃ c, s.proc p = some (⟨c, request⟩, .committed answer)

/-- Any calls, at any time. -/
def AnyCalls (_ : CatalogSys n) (_ : Act CatalogSupply (CatalogCall n)) : Prop := True

/-- In every state that any calls can reach, the calls are on their way to what they promise. -/
theorem catalog_promised {cfg : CatalogConfig} {C : CatalogSys n → Act CatalogSupply (CatalogCall n) → Prop} {s : CatalogSys n}
    (h : (catalogSystem cfg n).Reachable C s) : Sys.Promised (catalogDiscipline n) (fun call => call.request.Effect) s := by
  refine promised_of_reachable ?_ (fun call => catalogCall_promises cfg call) h
  rintro db rfl
  refine ⟨fun e he => ?_, List.nodup_nil, fun r hr => absurd hr List.not_mem_nil, fun _ => List.nodup_nil, List.nodup_nil⟩
  have he : (CatalogDb.empty n).Refers e := he
  cases he with
  | roomType hr => exact absurd hr List.not_mem_nil
  | amenity hx => exact absurd hx List.not_mem_nil
  | assigned hx => exact absurd hx List.not_mem_nil
  | roomTime ht => exact absurd ht List.not_mem_nil
  | roomTimeUse hu => exact absurd hu List.not_mem_nil
  | image hx _ => exact absurd hx List.not_mem_nil

/-! ### References -/

/-- Whatever refers to a row of the catalogue has it. -/
structure Referential (db : CatalogDb n) : Prop where
  roomType : ∀ r ∈ db.rooms, ∃ t ∈ db.roomTypes, t.id = r.roomTypeId
  assignedRoom : ∀ x ∈ db.roomAmenities, ∃ r ∈ db.rooms, r.id = x.roomId
  assignedAmenity : ∀ x ∈ db.roomAmenities, ∃ m ∈ db.amenities, m.id = x.amenityId
  roomTime : ∀ t ∈ db.roomTimes, ∃ r ∈ db.rooms, r.id = t.roomId
  roomTimeUse : ∀ u ∈ db.roomTimeUses, ∃ t ∈ db.roomTimes, t.id = u.roomTimeId
  image : ∀ x ∈ db.attachments, x.objectType = .room → ∃ r ∈ db.rooms, r.id = x.objectId
  /-- One room for each id, and no amenity of a room twice. -/
  rooms : (db.rooms.map (·.id)).Nodup
  amenities : ∀ roomId, (db.amenityIdsOf roomId).Nodup

theorem referential_of_inv {db : CatalogDb n} (h : (catalogDiscipline n).Inv db) : Referential db where
  roomType _ hr := List.mem_map.1 (has_of_refers h (.roomType hr))
  assignedRoom _ hx := List.mem_map.1 (has_of_refers h (.assigned hx))
  assignedAmenity _ hx := List.mem_map.1 (has_of_refers h (.amenity hx))
  roomTime _ ht := List.mem_map.1 (has_of_refers h (.roomTime ht))
  roomTimeUse _ hu := List.mem_map.1 (has_of_refers h (.roomTimeUse hu))
  image _ hx hroom := List.mem_map.1 (has_of_refers h (.image hx hroom))
  rooms := h.2.ids
  amenities := h.2.amenities

/-- **References are kept.** Whatever calls run, whatever they lock in whatever order: a room has its type, an
assignment its room and its amenity, a window and an image their room, a booking its window. -/
theorem references_kept (cfg : CatalogConfig) (n : ℕ) (s : CatalogSys n) (h : (catalogSystem cfg n).Reachable AnyCalls s) : Referential s.db :=
  referential_of_inv (catalog_promised h).good.inv

/-! ### What a commit does to the rooms -/

/-- A call that writes no room. -/
def CatalogRequest.LeavesRooms (request : CatalogRequest) : Prop :=
  (∀ body, request ≠ .createRoom body) ∧ (∀ roomId expectedVersion body, request ≠ .updateRoom roomId expectedVersion body) ∧
    ∀ roomId, request ≠ .deleteRoom roomId

/-- A room is created, saved or deleted, or the rooms are left alone. -/
theorem CatalogRequest.Effect.cases {request : CatalogRequest} {answer : CatalogAnswer} {db db' : CatalogDb n} (h : request.Effect answer db db') :
    (∃ body shown, request = .createRoom body ∧ answer = .room shown ∧ CreatesRoom body shown db db') ∨
      (∃ roomId expectedVersion body shown, request = .updateRoom roomId expectedVersion body ∧ answer = .room shown ∧
        UpdatesRoom roomId expectedVersion body shown db db') ∨
      (∃ roomId, request = .deleteRoom roomId ∧ DeletesRoom roomId db db') ∨
      (request.LeavesRooms ∧ db'.rooms = db.rooms ∧ db'.roomIds = db.roomIds) := by
  cases request with
  | createRoom body =>
    cases answer with
    | room shown => exact .inl ⟨body, shown, rfl, rfl, h⟩
    | _ => exact h.elim
  | updateRoom roomId expectedVersion body =>
    cases answer with
    | room shown => exact .inr (.inl ⟨roomId, expectedVersion, body, shown, rfl, rfl, h⟩)
    | _ => exact h.elim
  | deleteRoom roomId =>
    cases answer with
    | done => exact .inr (.inr (.inl ⟨roomId, rfl, h⟩))
    | _ => exact h.elim
  | _ => exact .inr (.inr (.inr ⟨⟨fun _ h => (by cases h), fun _ _ _ h => (by cases h), fun _ h => (by cases h)⟩, h⟩))

/-! ### The history of a room -/

/-- The room is what accepted calls made of it: its creation, and then one `PATCH` after the other, each of which
named the version it found. Their answers showed it. -/
inductive History (s : CatalogSys n) : Room n → Prop where
  | created {p : ℕ} {body : CreateRoomDto} {shown : AdminRoomResponse} {room : Room n} : Accepted s p (.createRoom body) (.room shown) →
      Created body room → shown = toAdminRoomResponse room shown.roomType shown.amenities shown.images → History s room
  | patched {p : ℕ} {body : UpdateRoomDto} {shown : AdminRoomResponse} {room saved : Room n} : History s room →
      Accepted s p (.updateRoom room.id (toString room.version) body) (.room shown) → Patched body room saved →
      shown = toAdminRoomResponse saved shown.roomType shown.amenities shown.images → History s saved

section History

variable {s s' : CatalogSys n} {room : Room n}

theorem Patched.id_eq {body : UpdateRoomDto} {saved : Room n} (h : Patched body room saved) : saved.id = room.id := by
  unfold Patched at h
  exact (congrArg Room.id h).trans rfl

theorem Patched.version_eq {body : UpdateRoomDto} {saved : Room n} (h : Patched body room saved) : saved.version = room.version + 1 := by
  unfold Patched at h
  exact (congrArg Room.version h).trans rfl

/-- What was accepted stays accepted. -/
theorem History.mono (h : History s room) (hacc : ∀ p request answer, Accepted s p request answer → Accepted s' p request answer) :
    History s' room := by
  induction h with
  | created haccepted hcreated hshown => exact .created (hacc _ _ _ haccepted) hcreated hshown
  | patched _ haccepted hpatched hshown ih => exact .patched ih (hacc _ _ _ haccepted) hpatched hshown

/-- A version before the room's own was named by an accepted `PATCH`, which answered with the next. -/
theorem History.version (h : History s room) {k : ℕ} (hk : 1 ≤ k) (hlt : k < room.version) :
    ∃ p body shown, Accepted s p (.updateRoom room.id (toString k) body) (.room shown) ∧ shown.version = k + 1 := by
  induction h with
  | created _ hcreated _ =>
    rw [hcreated.version] at hlt
    omega
  | @patched p body shown room saved _ haccepted hpatched hshown ih =>
    rw [hpatched.id_eq]
    rw [hpatched.version_eq] at hlt
    rcases Nat.lt_succ_iff_lt_or_eq.1 hlt with hlt | rfl
    · exact ih hlt
    · refine ⟨p, body, shown, haccepted, ?_⟩
      rw [hshown]
      exact hpatched.version_eq

theorem History.creation (h : History s room) : ∃ p body shown, Accepted s p (.createRoom body) (.room shown) ∧ shown.id = room.id := by
  induction h with
  | @created p body shown room haccepted _ hshown => exact ⟨p, body, shown, haccepted, congrArg AdminRoomResponse.id hshown⟩
  | patched _ _ hpatched _ ih =>
    rw [hpatched.id_eq]
    exact ih

theorem History.version_pos (h : History s room) : 1 ≤ room.version := by
  cases h with
  | created _ hcreated _ => exact hcreated.version.ge
  | patched _ _ hpatched _ =>
    rw [hpatched.version_eq]
    exact Nat.le_add_left 1 _

end History

/-! ### Every interleaving -/

/-- The rooms of a state are as the accepted calls say, which named different versions of them. -/
structure Serial (s : CatalogSys n) : Prop where
  history : ∀ room ∈ s.db.rooms, History s room
  /-- Of `PATCH`es that name one version of a room one is accepted. -/
  one : ∀ p q roomId expectedVersion body body' answer answer', Accepted s p (.updateRoom roomId expectedVersion body) answer →
    Accepted s q (.updateRoom roomId expectedVersion body') answer' → p = q
  /-- An accepted `PATCH` named a version that the room has left behind, and answered with the next. -/
  named : ∀ p roomId expectedVersion body answer, Accepted s p (.updateRoom roomId expectedVersion body) answer →
    ∃ version shown, answer = .room shown ∧ expectedVersion = toString version ∧ shown.id = roomId ∧ shown.version = version + 1 ∧
      ∀ room ∈ s.db.rooms, room.id = roomId → version < room.version
  /-- A version that a room has left behind was named by an accepted `PATCH`. -/
  left : ∀ room ∈ s.db.rooms, ∀ version, 1 ≤ version → version < room.version →
    ∃ p body shown, Accepted s p (.updateRoom room.id (toString version) body) (.room shown) ∧ shown.version = version + 1
  /-- No two rooms were given one id. -/
  created : ∀ p q body body' shown shown', Accepted s p (.createRoom body) (.room shown) → Accepted s q (.createRoom body') (.room shown') →
    shown.id = shown'.id → p = q

/-- The invariant behind it: the ids that were given are those of the calls. -/
structure SerialInv (s : CatalogSys n) : Prop where
  history : ∀ room ∈ s.db.rooms, History s room
  one : ∀ p q roomId expectedVersion body body' answer answer', Accepted s p (.updateRoom roomId expectedVersion body) answer →
    Accepted s q (.updateRoom roomId expectedVersion body') answer' → p = q
  named : ∀ p roomId expectedVersion body answer, Accepted s p (.updateRoom roomId expectedVersion body) answer → roomId ∈ s.db.roomIds ∧
    ∃ version shown, answer = .room shown ∧ expectedVersion = toString version ∧ shown.id = roomId ∧ shown.version = version + 1 ∧
      ∀ room ∈ s.db.rooms, room.id = roomId → version < room.version
  created : ∀ p q body body' shown shown', Accepted s p (.createRoom body) (.room shown) → Accepted s q (.createRoom body') (.room shown') →
    shown.id = shown'.id → p = q
  given : ∀ p body shown, Accepted s p (.createRoom body) (.room shown) → shown.id ∈ s.db.roomIds

section Steps

variable {cfg : CatalogConfig} {s s' : CatalogSys n} {p : ℕ} {call : CatalogCall n} {answer : CatalogAnswer}

theorem accepted_of_exec {a : Act CatalogSupply (CatalogCall n)} (he : (catalogSystem cfg n).exec s a = some s') {q : ℕ} {request : CatalogRequest}
    {answer : CatalogAnswer} (h : Accepted s q request answer) : Accepted s' q request answer := by
  obtain ⟨c, hq⟩ := h
  exact ⟨c, ended_of_exec he (fun _ _ _ => by simp) hq⟩

/-- What is accepted after a commit was accepted before, or is what was committed. -/
theorem accepted_of_commits (hc : Sys.Commits p call answer s s') {q : ℕ} {request : CatalogRequest} {answer' : CatalogAnswer}
    (h : Accepted s' q request answer') : Accepted s q request answer' ∨ q = p ∧ request = call.request ∧ answer' = answer := by
  obtain ⟨c, hq⟩ := h
  by_cases hqp : q = p
  · subst hqp
    rw [hc.committed] at hq
    cases hq
    exact .inr ⟨rfl, rfl, rfl⟩
  · rw [hc.others q hqp] at hq
    exact .inl ⟨c, hq⟩

theorem accepted_of_committed (hc : Sys.Commits p call answer s s') : Accepted s' p call.request answer := ⟨call.connection, hc.committed⟩

/-- Where no room is written, and no call that writes one was accepted. -/
theorem SerialInv.of_subset (h : SerialInv s) (hrooms : s'.db.rooms ⊆ s.db.rooms) (hids : s'.db.roomIds = s.db.roomIds)
    (hacc : ∀ q request answer, Accepted s q request answer → Accepted s' q request answer)
    (hback : ∀ q request answer, Accepted s' q request answer → Accepted s q request answer ∨
      (∀ body, request ≠ .createRoom body) ∧ ∀ roomId expectedVersion body, request ≠ .updateRoom roomId expectedVersion body) :
    SerialInv s' := by
  have hcreate : ∀ {q body answer}, Accepted s' q (.createRoom body) answer → Accepted s q (.createRoom body) answer :=
    fun hq => (hback _ _ _ hq).resolve_right fun hnot => hnot.1 _ rfl
  have hupdate : ∀ {q roomId e body answer}, Accepted s' q (.updateRoom roomId e body) answer → Accepted s q (.updateRoom roomId e body) answer :=
    fun hq => (hback _ _ _ hq).resolve_right fun hnot => hnot.2 _ _ _ rfl
  refine ⟨fun room hroom => (h.history room (hrooms hroom)).mono hacc, fun q q' roomId e body body' a a' hq hq' => ?_, fun q roomId e body a hq => ?_,
    fun q q' body body' a a' hq hq' => ?_, fun q body a hq => ?_⟩
  · exact h.one q q' roomId e body body' a a' (hupdate hq) (hupdate hq')
  · obtain ⟨hgiven, version, shown, hanswer, hversion, hid, hnext, hbehind⟩ := h.named q roomId e body a (hupdate hq)
    exact ⟨hids ▸ hgiven, version, shown, hanswer, hversion, hid, hnext, fun room hroom => hbehind room (hrooms hroom)⟩
  · exact h.created q q' body body' a a' (hcreate hq) (hcreate hq')
  · exact hids ▸ h.given q body a (hcreate hq)

theorem SerialInv.create (h : SerialInv s) {body : CreateRoomDto} {shown : AdminRoomResponse}
    (hacc : ∀ q request answer, Accepted s q request answer → Accepted s' q request answer) (hp : Accepted s' p (.createRoom body) (.room shown))
    (hback : ∀ q request answer, Accepted s' q request answer →
      Accepted s q request answer ∨ q = p ∧ request = .createRoom body ∧ answer = .room shown)
    (hcreates : CreatesRoom body shown s.db s'.db) : SerialInv s' := by
  obtain ⟨room, hcreated, hnew, hrooms, hids, hshows, -⟩ := hcreates
  have hshown : shown = toAdminRoomResponse room shown.roomType shown.amenities (s'.db.imageSetOf room.id) := hshows.columns
  have himages : shown.images = s'.db.imageSetOf room.id := congrArg AdminRoomResponse.images hshown
  have hid : shown.id = room.id := congrArg AdminRoomResponse.id hshown
  have hupdate : ∀ {q roomId e body answer}, Accepted s' q (.updateRoom roomId e body) answer → Accepted s q (.updateRoom roomId e body) answer :=
    fun hq => (hback _ _ _ hq).resolve_right fun hnot => by cases hnot.2.1
  have hcreate : ∀ {q body' shown'}, Accepted s' q (.createRoom body') (.room shown') →
      Accepted s q (.createRoom body') (.room shown') ∨ q = p ∧ shown' = shown := by
    intro q body' shown' hq
    refine (hback q _ _ hq).imp_right fun hnew => ⟨hnew.1, ?_⟩
    injection hnew.2.2
  refine ⟨fun r hr => ?_, fun q q' roomId e body body' a a' hq hq' => h.one q q' roomId e body body' a a' (hupdate hq) (hupdate hq'),
    fun q roomId e body a hq => ?_, fun q q' body₁ body₂ a a' hq hq' haa' => ?_, fun q body' a hq => ?_⟩
  · rw [hrooms] at hr
    rcases List.mem_append.1 hr with hr | hr
    · exact (h.history r hr).mono hacc
    · rw [List.mem_singleton.1 hr]
      exact .created hp hcreated (himages ▸ hshown)
  · obtain ⟨hgiven, version, shown', hanswer, hversion, hid', hnext, hbehind⟩ := h.named q roomId e body a (hupdate hq)
    refine ⟨hids ▸ List.mem_append_left _ hgiven, version, shown', hanswer, hversion, hid', hnext, fun r hr hrid => ?_⟩
    rw [hrooms] at hr
    rcases List.mem_append.1 hr with hr | hr
    · exact hbehind r hr hrid
    · rw [List.mem_singleton.1 hr] at hrid
      exact absurd (hrid ▸ hgiven) hnew
  · rcases hcreate hq with hold | ⟨rfl, rfl⟩ <;> rcases hcreate hq' with hold' | ⟨rfl, rfl⟩
    · exact h.created q q' body₁ body₂ a a' hold hold' haa'
    · exact absurd (hid ▸ haa' ▸ h.given q body₁ a hold) hnew
    · exact absurd (hid ▸ haa' ▸ h.given q' body₂ a' hold') hnew
    · rfl
  · rw [hids]
    rcases hcreate hq with hold | ⟨rfl, rfl⟩
    · exact List.mem_append_left _ (h.given q body' a hold)
    · exact List.mem_append_right _ (List.mem_singleton.2 hid)

theorem SerialInv.update (h : SerialInv s) (hinv : RoomsInv s.db) {roomId : ℕ} {expectedVersion : String} {body : UpdateRoomDto}
    {shown : AdminRoomResponse} (hacc : ∀ q request answer, Accepted s q request answer → Accepted s' q request answer)
    (hp : Accepted s' p (.updateRoom roomId expectedVersion body) (.room shown))
    (hback : ∀ q request answer, Accepted s' q request answer →
      Accepted s q request answer ∨ q = p ∧ request = .updateRoom roomId expectedVersion body ∧ answer = .room shown)
    (hupdates : UpdatesRoom roomId expectedVersion body shown s.db s'.db) : SerialInv s' := by
  obtain ⟨room, hmem, saved, rfl, rfl, hpatched, hrooms, hids, hshows, -⟩ := hupdates
  have hshown : shown = toAdminRoomResponse saved shown.roomType shown.amenities (s'.db.imageSetOf saved.id) := hshows.columns
  have himages : shown.images = s'.db.imageSetOf saved.id := congrArg AdminRoomResponse.images hshown
  have hid : shown.id = room.id := (congrArg AdminRoomResponse.id hshown).trans hpatched.id_eq
  have hversion : shown.version = room.version + 1 := (congrArg AdminRoomResponse.version hshown).trans hpatched.version_eq
  have hcreate : ∀ {q body answer}, Accepted s' q (.createRoom body) answer → Accepted s q (.createRoom body) answer :=
    fun hq => (hback _ _ _ hq).resolve_right fun hnot => by cases hnot.2.1
  have hupdate : ∀ {q roomId e body' answer}, Accepted s' q (.updateRoom roomId e body') answer → Accepted s q (.updateRoom roomId e body') answer ∨
      q = p ∧ roomId = room.id ∧ e = toString room.version ∧ answer = .room shown := by
    intro q roomId e body' answer hq
    refine (hback q _ _ hq).imp_right fun hnew => ?_
    obtain ⟨rfl, hrequest, hanswer⟩ := hnew
    injection hrequest with hroom he
    exact ⟨rfl, hroom, he, hanswer⟩
  -- a version that was named before is behind the room
  have hbehind : ∀ {q body' answer}, ¬ Accepted s q (.updateRoom room.id (toString room.version) body') answer := by
    intro q body' answer hq
    obtain ⟨-, version, _, -, hsame, -, -, hlt⟩ := h.named q _ _ body' answer hq
    exact absurd (Common.toString_injective hsame) (hlt room hmem rfl).ne'
  have hrows : ∀ r ∈ s'.db.rooms, r = saved ∨ r ∈ s.db.rooms ∧ r.id ≠ room.id := by
    intro r hr
    rw [hrooms] at hr
    obtain ⟨r', hr', ⟨-, rfl⟩ | ⟨hne, rfl⟩⟩ := Table.mem_update.1 hr
    · exact .inl rfl
    · exact .inr ⟨hr', of_decide_eq_false hne⟩
  refine ⟨fun r hr => ?_, fun q q' roomId e body₁ body₂ a a' hq hq' => ?_, fun q roomId e body' a hq => ?_,
    fun q q' body₁ body₂ a a' hq hq' => h.created q q' body₁ body₂ a a' (hcreate hq) (hcreate hq'), fun q body' a hq => hids ▸ h.given q body' a (hcreate hq)⟩
  · rcases hrows r hr with rfl | ⟨hr, -⟩
    · exact .patched ((h.history room hmem).mono hacc) hp hpatched (himages ▸ hshown)
    · exact (h.history r hr).mono hacc
  · rcases hupdate hq with hold | ⟨rfl, rfl, rfl, -⟩ <;> rcases hupdate hq' with hold' | ⟨rfl, hroom, he, -⟩
    · exact h.one q q' roomId e body₁ body₂ a a' hold hold'
    · subst hroom he
      exact absurd hold hbehind
    · exact absurd hold' hbehind
    · rfl
  · rcases hupdate hq with hold | ⟨rfl, rfl, rfl, rfl⟩
    · obtain ⟨hgiven, version, shown', hanswer, hnamed, hid', hnext, hlt⟩ := h.named q roomId e body' a hold
      refine ⟨hids ▸ hgiven, version, shown', hanswer, hnamed, hid', hnext, fun r hr hrid => ?_⟩
      rcases hrows r hr with rfl | ⟨hr, -⟩
      · rw [hpatched.id_eq] at hrid
        rw [hpatched.version_eq]
        exact Nat.lt_succ_of_lt (hlt room hmem hrid)
      · exact hlt r hr hrid
    · refine ⟨hids ▸ hinv.given room hmem, room.version, shown, rfl, rfl, hid, hversion, fun r hr hrid => ?_⟩
      rcases hrows r hr with rfl | ⟨-, hne⟩
      · rw [hpatched.version_eq]
        exact Nat.lt_succ_self _
      · exact absurd hrid hne

/-- One step of the calls. -/
theorem SerialInv.step (hprog : Sys.Promised (catalogDiscipline n) (fun call => call.request.Effect) s) (h : SerialInv s)
    {a : Act CatalogSupply (CatalogCall n)} (he : (catalogSystem cfg n).exec s a = some s') : SerialInv s' := by
  have hacc : ∀ q request answer, Accepted s q request answer → Accepted s' q request answer := fun q request answer hq => accepted_of_exec he hq
  rcases (hprog.step (fun call => catalogCall_promises cfg call) he).2 with hidle | ⟨p, call, answer, hc, heffect⟩
  · refine h.of_subset ?_ ?_ hacc fun q request answer hq => .inl ?_
    · rw [hidle.1]
      exact List.Subset.refl _
    · rw [hidle.1]
    · obtain ⟨c, hq⟩ := hq
      exact ⟨c, hidle.2 q _ _ hq⟩
  · have hp := accepted_of_committed hc
    have hback : ∀ q request answer', Accepted s' q request answer' → Accepted s q request answer' ∨ q = p ∧ request = call.request ∧ answer' = answer :=
      fun q request answer' hq => accepted_of_commits hc hq
    rcases heffect.cases with ⟨body, shown, hrequest, rfl, hcreates⟩ | ⟨roomId, e, body, shown, hrequest, rfl, hupdates⟩ |
      ⟨roomId, hrequest, hdeletes⟩ | ⟨hleaves, hrooms, hids⟩
    · rw [hrequest] at hp hback
      exact h.create hacc hp hback hcreates
    · rw [hrequest] at hp hback
      exact h.update hprog.good.inv.2 hacc hp hback hupdates
    · rw [hrequest] at hback
      obtain ⟨-, -, tasks, hdb, -⟩ := hdeletes
      refine h.of_subset ?_ ?_ hacc fun q request answer' hq => (hback q request answer' hq).imp_right ?_
      · rw [hdb]
        exact Table.delete_subset
      · rw [hdb]
        rfl
      · rintro ⟨-, rfl, -⟩
        exact ⟨fun _ h => (by cases h), fun _ _ _ h => (by cases h)⟩
    · refine h.of_subset ?_ hids hacc fun q request answer' hq => (hback q request answer' hq).imp_right ?_
      · rw [hrooms]
        exact List.Subset.refl _
      · rintro ⟨-, rfl, -⟩
        exact ⟨hleaves.1, hleaves.2.1⟩

/-- Before any call. -/
theorem SerialInv.start : SerialInv (Sys.start (CatalogDb.empty n) : CatalogSys n) := by
  have hnone : ∀ {q request answer}, ¬ Accepted (Sys.start (CatalogDb.empty n) : CatalogSys n) q request answer := by
    rintro q request answer ⟨c, hq⟩
    cases hq
  exact ⟨fun _ hr => absurd hr List.not_mem_nil, fun _ _ _ _ _ _ _ _ hq => absurd hq hnone, fun _ _ _ _ _ hq => absurd hq hnone,
    fun _ _ _ _ _ _ hq => absurd hq hnone, fun _ _ _ hq => absurd hq hnone⟩

theorem serialInv_of_reachable (h : (catalogSystem cfg n).Reachable AnyCalls s) : SerialInv s := by
  induction h with
  | init hs =>
    obtain ⟨db, hdb, rfl⟩ := hs
    have hdb : db = .empty n := hdb
    subst hdb
    exact .start
  | step hs _ he ih => exact ih.step (catalog_promised hs) he

end Steps

/-- **No update is lost.** In every state that any calls can reach, each room is what its creation and then the accepted
`PATCH`es of it made of it, in the order of the versions they named; each of its versions was named by one accepted `PATCH`, and
none named another. -/
theorem rooms_serial (cfg : CatalogConfig) (n : ℕ) (s : CatalogSys n) (h : (catalogSystem cfg n).Reachable AnyCalls s) : Serial s := by
  have hinv := serialInv_of_reachable h
  refine ⟨hinv.history, hinv.one, fun p roomId e body a hp => (hinv.named p roomId e body a hp).2, fun room hroom version hpos hlt => ?_, hinv.created⟩
  exact (hinv.history room hroom).version hpos hlt

/-! ### Answers -/

/-- What a call that is accepted in a step does in it. -/
structure AnswersHold (s s' : CatalogSys n) : Prop where
  created : ∀ p c body answer, Sys.Commits p ⟨c, .createRoom body⟩ answer s s' → ∃ shown, answer = .room shown ∧ CreatesRoom body shown s.db s'.db
  updated : ∀ p c roomId expectedVersion body answer, Sys.Commits p ⟨c, .updateRoom roomId expectedVersion body⟩ answer s s' →
    ∃ shown, answer = .room shown ∧ UpdatesRoom roomId expectedVersion body shown s.db s'.db
  deleted : ∀ p c roomId answer, Sys.Commits p ⟨c, .deleteRoom roomId⟩ answer s s' → DeletesRoom roomId s.db s'.db
  /-- A step in which no call is accepted changes nothing. -/
  idle : (∀ p call answer, ¬ Sys.Commits p call answer s s') → s'.db = s.db

end HotelBackend.Catalog
