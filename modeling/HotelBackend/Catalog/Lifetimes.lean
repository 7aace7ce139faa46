import HotelBackend.Catalog.Histories

/-!
# The lifetime of a room

The rooms of a state are those that were created and not deleted (`rooms_present`): nothing else loses a
room, and none comes back. At the end, a season of two administrators at one hotel, through which the
results of the catalogue are shown to have something to say.
-/

namespace HotelBackend.Catalog

open HotelBackend.Theory
open HotelBackend.Theory.Transactions
open HotelBackend.Rooms (RoomStatus RoomTime RoomTimeStatus)
open HotelBackend.Files

variable {n : ℕ}

/-- The ids of rooms, by the calls that were accepted. -/
structure LifetimeInv (s : CatalogSys n) : Prop where
  kept : ∀ p body shown, Accepted s p (.createRoom body) (.room shown) →
    s.db.Has (.room shown.id) ∨ ∃ q answer, Accepted s q (.deleteRoom shown.id) answer
  gone : ∀ p roomId answer, Accepted s p (.deleteRoom roomId) answer → roomId ∈ s.db.roomIds ∧ ¬ s.db.Has (.room roomId)

section Steps

variable {cfg : CatalogConfig} {s s' : CatalogSys n} {p : ℕ}

/-- Where the ids of the rooms stay, and no room was created or deleted. -/
theorem LifetimeInv.of_ids (h : LifetimeInv s) (hrooms : ∀ id, s'.db.Has (.room id) ↔ s.db.Has (.room id)) (hids : s'.db.roomIds = s.db.roomIds)
    (hacc : ∀ q request answer, Accepted s q request answer → Accepted s' q request answer)
    (hback : ∀ q request answer, Accepted s' q request answer → Accepted s q request answer ∨
      (∀ body, request ≠ .createRoom body) ∧ ∀ roomId, request ≠ .deleteRoom roomId) : LifetimeInv s' := by
  refine ⟨fun q body shown hq => ?_, fun q roomId answer hq => ?_⟩
  · have hold := (hback _ _ _ hq).resolve_right fun hnot => hnot.1 _ rfl
    refine (h.kept q body shown hold).imp (hrooms _).2 ?_
    exact fun ⟨q', answer, hq'⟩ => ⟨q', answer, hacc _ _ _ hq'⟩
  · have hold := (hback _ _ _ hq).resolve_right fun hnot => hnot.2 _ rfl
    obtain ⟨hgiven, hnot⟩ := h.gone q roomId answer hold
    exact ⟨hids ▸ hgiven, fun hthere => hnot ((hrooms _).1 hthere)⟩

theorem LifetimeInv.create (h : LifetimeInv s) {body : CreateRoomDto} {shown : AdminRoomResponse}
    (hacc : ∀ q request answer, Accepted s q request answer → Accepted s' q request answer)
    (hback : ∀ q request answer, Accepted s' q request answer →
      Accepted s q request answer ∨ q = p ∧ request = .createRoom body ∧ answer = .room shown)
    (hcreates : CreatesRoom body shown s.db s'.db) : LifetimeInv s' := by
  obtain ⟨room, -, hnew, hrooms, hids, hshows, -⟩ := hcreates
  have hid : shown.id = room.id := congrArg AdminRoomResponse.id hshows.columns
  have hthere : ∀ id, s'.db.Has (.room id) ↔ s.db.Has (.room id) ∨ id = room.id := by
    intro id
    show id ∈ s'.db.rooms.map (·.id) ↔ _
    rw [hrooms, List.map_append, List.mem_append, List.map_singleton, List.mem_singleton]
    exact Iff.rfl
  refine ⟨fun q body' shown' hq => ?_, fun q roomId answer hq => ?_⟩
  · rcases hback _ _ _ hq with hold | ⟨-, -, hanswer⟩
    · refine (h.kept q body' shown' hold).imp (fun hthere' => (hthere _).2 (.inl hthere')) ?_
      exact fun ⟨q', answer, hq'⟩ => ⟨q', answer, hacc _ _ _ hq'⟩
    · injection hanswer with hanswer
      exact .inl ((hthere _).2 (.inr (hanswer ▸ hid)))
  · have hold := (hback _ _ _ hq).resolve_right fun hnot => by cases hnot.2.1
    obtain ⟨hgiven, hnot⟩ := h.gone q roomId answer hold
    refine ⟨hids ▸ List.mem_append_left _ hgiven, fun hthere' => ?_⟩
    rcases (hthere _).1 hthere' with hthere' | rfl
    · exact hnot hthere'
    · exact hnew hgiven

theorem LifetimeInv.delete (h : LifetimeInv s) (hinv : RoomsInv s.db) {roomId : ℕ} {answer : CatalogAnswer}
    (hacc : ∀ q request answer, Accepted s q request answer → Accepted s' q request answer) (hp : Accepted s' p (.deleteRoom roomId) answer)
    (hback : ∀ q request answer', Accepted s' q request answer' →
      Accepted s q request answer' ∨ q = p ∧ request = .deleteRoom roomId ∧ answer' = answer)
    (hdeletes : DeletesRoom roomId s.db s'.db) : LifetimeInv s' := by
  obtain ⟨⟨room, hmem, hid⟩, -, tasks, hdb, -⟩ := hdeletes
  have hthere : ∀ id, s'.db.Has (.room id) ↔ s.db.Has (.room id) ∧ id ≠ roomId := by
    intro id
    rw [hdb]
    show id ∈ (Table.delete s.db.rooms (·.id = roomId)).map (·.id) ↔ id ∈ s.db.rooms.map (·.id) ∧ _
    rw [List.mem_map, List.mem_map]
    constructor
    · rintro ⟨r, hr, rfl⟩
      exact ⟨⟨r, (Table.mem_delete.1 hr).1, rfl⟩, of_decide_eq_false (Table.mem_delete.1 hr).2⟩
    · rintro ⟨⟨r, hr, rfl⟩, hne⟩
      exact ⟨r, Table.mem_delete.2 ⟨hr, decide_eq_false hne⟩, rfl⟩
  have hids : s'.db.roomIds = s.db.roomIds := by
    rw [hdb]
    rfl
  refine ⟨fun q body shown hq => ?_, fun q roomId' answer' hq => ?_⟩
  · have hold := (hback _ _ _ hq).resolve_right fun hnot => by cases hnot.2.1
    rcases h.kept q body shown hold with hthere' | ⟨q', answer', hq'⟩
    · by_cases hdeleted : shown.id = roomId
      · exact .inr ⟨p, answer, hdeleted ▸ hp⟩
      · exact .inl ((hthere _).2 ⟨hthere', hdeleted⟩)
    · exact .inr ⟨q', answer', hacc _ _ _ hq'⟩
  · rw [hids]
    rcases hback _ _ _ hq with hold | ⟨-, hrequest, -⟩
    · obtain ⟨hgiven, hnot⟩ := h.gone q roomId' answer' hold
      exact ⟨hgiven, fun hthere' => hnot ((hthere _).1 hthere').1⟩
    · injection hrequest with hroom
      subst hroom
      exact ⟨hid ▸ hinv.given room hmem, fun hthere' => ((hthere _).1 hthere').2 rfl⟩

/-- One step of the calls. -/
theorem LifetimeInv.step (hprog : Sys.Promised (catalogDiscipline n) (fun call => call.request.Effect) s) (h : LifetimeInv s)
    {a : Act CatalogSupply (CatalogCall n)} (he : (catalogSystem cfg n).exec s a = some s') : LifetimeInv s' := by
  have hacc : ∀ q request answer, Accepted s q request answer → Accepted s' q request answer := fun q request answer hq => accepted_of_exec he hq
  rcases (hprog.step (fun call => catalogCall_promises cfg call) he).2 with hidle | ⟨p, call, answer, hc, heffect⟩
  · refine h.of_ids (fun id => by rw [hidle.1]) (by rw [hidle.1]) hacc fun q request answer hq => .inl ?_
    obtain ⟨c, hq⟩ := hq
    exact ⟨c, hidle.2 q _ _ hq⟩
  · have hp := accepted_of_committed hc
    have hback : ∀ q request answer', Accepted s' q request answer' → Accepted s q request answer' ∨ q = p ∧ request = call.request ∧ answer' = answer :=
      fun q request answer' hq => accepted_of_commits hc hq
    rcases heffect.cases with ⟨body, shown, hrequest, rfl, hcreates⟩ | ⟨roomId, e, body, shown, hrequest, rfl, hupdates⟩ |
      ⟨roomId, hrequest, hdeletes⟩ | ⟨hleaves, hrooms, hids⟩
    · rw [hrequest] at hback
      exact h.create hacc hback hcreates
    · rw [hrequest] at hback
      obtain ⟨room, -, saved, hid, -, hpatched, hrooms, hids, -⟩ := hupdates
      refine h.of_ids (fun id => ?_) hids hacc fun q request answer' hq => (hback q request answer' hq).imp_right ?_
      · show id ∈ s'.db.rooms.map (·.id) ↔ id ∈ s.db.rooms.map (·.id)
        rw [hrooms, Table.map_update fun r _ hr => (hpatched.id_eq.trans hid).trans (of_decide_eq_true hr).symm]
      · rintro ⟨-, rfl, -⟩
        exact ⟨fun _ h => (by cases h), fun _ h => (by cases h)⟩
    · rw [hrequest] at hp hback
      exact h.delete hprog.good.inv.2 hacc hp hback hdeletes
    · refine h.of_ids (fun id => ?_) hids hacc fun q request answer' hq => (hback q request answer' hq).imp_right ?_
      · show id ∈ s'.db.rooms.map (·.id) ↔ id ∈ s.db.rooms.map (·.id)
        rw [hrooms]
      · rintro ⟨-, rfl, -⟩
        exact ⟨hleaves.1, hleaves.2.2⟩

theorem lifetimeInv_of_reachable (h : (catalogSystem cfg n).Reachable AnyCalls s) : LifetimeInv s := by
  induction h with
  | init hs =>
    obtain ⟨db, hdb, rfl⟩ := hs
    exact ⟨fun _ _ _ ⟨_, hq⟩ => (by cases hq), fun _ _ _ ⟨_, hq⟩ => (by cases hq)⟩
  | step hs _ he ih => exact ih.step (catalog_promised hs) he

end Steps

/-- The rooms of a state are those that were created and not deleted; of a deleted one nothing is left. -/
structure Present (s : CatalogSys n) : Prop where
  rooms : ∀ roomId, (∃ room ∈ s.db.rooms, room.id = roomId) ↔
    (∃ p body shown, Accepted s p (.createRoom body) (.room shown) ∧ shown.id = roomId) ∧ ∀ p answer, ¬ Accepted s p (.deleteRoom roomId) answer
  amenities : ∀ p roomId answer, Accepted s p (.deleteRoom roomId) answer → ∀ x ∈ s.db.roomAmenities, x.roomId ≠ roomId
  roomTimes : ∀ p roomId answer, Accepted s p (.deleteRoom roomId) answer → ∀ t ∈ s.db.roomTimes, t.roomId ≠ roomId
  images : ∀ p roomId answer, Accepted s p (.deleteRoom roomId) answer → ∀ x ∈ s.db.attachments, x.objectType = .room → x.objectId ≠ roomId

/-- **Rooms come and go by their calls only.** In every state that any calls can reach, a room is there if and only if a `POST` that
was given its id was accepted and no `DELETE` of it; and of a deleted room no amenity, window or image is there. -/
theorem rooms_present (cfg : CatalogConfig) (n : ℕ) (s : CatalogSys n) (h : (catalogSystem cfg n).Reachable AnyCalls s) : Present s := by
  have hlife := lifetimeInv_of_reachable h
  have hrefers := referential_of_inv (catalog_promised h).good.inv
  have hgone : ∀ p roomId answer, Accepted s p (.deleteRoom roomId) answer → ∀ r ∈ s.db.rooms, r.id ≠ roomId := fun p roomId answer hp r hr hid =>
    (hlife.gone p roomId answer hp).2 (List.mem_map.2 ⟨r, hr, hid⟩)
  refine ⟨fun roomId => ⟨?_, ?_⟩, fun p roomId answer hp x hx hid => ?_, fun p roomId answer hp t ht hid => ?_, fun p roomId answer hp x hx hroom hid => ?_⟩
  · rintro ⟨room, hroom, rfl⟩
    exact ⟨((serialInv_of_reachable h).history room hroom).creation, fun p answer hp => hgone p _ answer hp room hroom rfl⟩
  · rintro ⟨⟨p, body, shown, hp, rfl⟩, hnone⟩
    refine List.mem_map.1 ((hlife.kept p body shown hp).resolve_right ?_)
    exact fun ⟨q, answer, hq⟩ => hnone q answer hq
  · obtain ⟨r, hr, hroom⟩ := hrefers.assignedRoom x hx
    exact hgone p roomId answer hp r hr (hroom.trans hid)
  · obtain ⟨r, hr, hroom⟩ := hrefers.roomTime t ht
    exact hgone p roomId answer hp r hr (hroom.trans hid)
  · obtain ⟨r, hr, hroom'⟩ := hrefers.image x hx hroom
    exact hgone p roomId answer hp r hr (hroom'.trans hid)

/-! ### A season -/

def seasonConfig : CatalogConfig := ⟨id, 20⟩

/-- What is drawn for a write. -/
def seasonSupply (i : ℕ) : CatalogSupply := ⟨i, fun k => toString (1000 * i + k), 10 * i⟩

/-- Two administrators change the room they both see in version 1; one of them is told of the conflict, and tries again. -/
def season : List (Act CatalogSupply (CatalogCall 2)) :=
  let steps (p k i : ℕ) : List (Act CatalogSupply (CatalogCall 2)) := List.replicate k (.step p (seasonSupply i))
  .start 0 ⟨0, .createRoomType ⟨"Deluxe", none⟩⟩ :: steps 0 3 1 ++ .start 1 ⟨1, .createAmenity ⟨"WIFI", "Wi-Fi"⟩⟩ :: steps 1 3 2 ++
  .start 2 ⟨0, .createRoom ⟨"A-201", 1, 2, none, 1000000, "VND", .active, [2]⟩⟩ :: steps 2 8 7 ++
  .start 3 ⟨0, .updateRoom 7 "1" ⟨none, none, some 3, none, none, none, none, none⟩⟩ ::
  .start 4 ⟨1, .updateRoom 7 "1" ⟨none, none, none, none, some 900000, none, none, none⟩⟩ :: steps 3 9 8 ++ steps 4 2 9 ++
  .start 5 ⟨1, .updateRoom 7 "2" ⟨none, none, none, none, some 900000, none, none, some []⟩⟩ :: steps 5 10 10

def seasonEnd : Option (CatalogSys 2) := (catalogSystem seasonConfig 2).run (Sys.start (.empty 2)) season

theorem seasonEnd_isSome : seasonEnd.isSome = true := by decide

theorem season_reachable : (catalogSystem seasonConfig 2).Reachable AnyCalls (seasonEnd.get seasonEnd_isSome) :=
  .of_run (.init ⟨_, rfl, rfl⟩) (fun _ _ _ => trivial) (Option.some_get seasonEnd_isSome).symm

theorem references_kept_season :
    let s := seasonEnd.get seasonEnd_isSome
    s.db.roomTypes.map (·.id) = [1] ∧ s.db.rooms.map (·.roomTypeId) = [1] ∧ Referential s.db :=
  ⟨by decide, by decide, references_kept seasonConfig 2 _ season_reachable⟩

theorem rooms_serial_season :
    let s := seasonEnd.get seasonEnd_isSome
    s.db.rooms.map (fun r => (r.id, r.bedCount, r.basePriceAmount, r.version)) = [(7, 3, 900000, 3)] ∧ Serial s :=
  ⟨by decide, rooms_serial seasonConfig 2 _ season_reachable⟩

/-- The room is about to be deleted. -/
def closing : Option (CatalogSys 2) :=
  seasonEnd.bind fun s => (catalogSystem seasonConfig 2).run s (.start 6 ⟨0, .deleteRoom 7⟩ :: List.replicate 6 (.step 6 (seasonSupply 11)))

theorem closing_isSome : closing.isSome = true := by decide

theorem closing_reachable : (catalogSystem seasonConfig 2).Reachable AnyCalls (closing.get closing_isSome) := by
  obtain ⟨s, hs, hrun⟩ := Option.bind_eq_some_iff.1 (Option.some_get closing_isSome).symm
  have hseason : (catalogSystem seasonConfig 2).Reachable AnyCalls s := .of_run (.init ⟨_, rfl, rfl⟩) (fun _ _ _ => trivial) hs
  exact .of_run hseason (fun _ _ _ => trivial) hrun

def closed : Option (CatalogSys 2) := (catalogSystem seasonConfig 2).exec (closing.get closing_isSome) (.step 6 (seasonSupply 11))

theorem closed_isSome : closed.isSome = true := by decide

theorem rooms_present_season :
    let s := closed.get closed_isSome
    s.db.roomIds = [7] ∧ s.db.rooms = [] ∧ Present s := by
  refine ⟨by decide, by decide, rooms_present seasonConfig 2 _ ?_⟩
  exact closing_reachable.step trivial (Option.some_get closed_isSome).symm

end HotelBackend.Catalog
