import PoolFeed.Proofs.Roster
import PoolFeed.Rooms

/-!
# Who is in which room

| here | there |
| --- | --- |
| `Kept` | what calls of `RoomBroadcaster.connect`, `disconnect`, `join` and `leave` keep, one after the other |

Every room that is stored has members, none of them twice, and all of them connected (`Kept`). Connecting, disconnecting,
joining and leaving keep it so, as long as nothing comes between the steps of each.
-/

namespace PoolFeed

namespace Rooms

variable {r : Rooms} {client room : String}

/-- Rooms are not empty, and their members are connected. -/
structure Kept (r : Rooms) : Prop where
  clients : r.clients.keys.Nodup
  nonempty : ∀ entry ∈ r.rooms, entry.2 ≠ []
  nodup : ∀ entry ∈ r.rooms, entry.2.Nodup
  connected : ∀ entry ∈ r.rooms, ∀ c ∈ entry.2, r.clients.has c = true

theorem kept_empty : Kept {} := ⟨List.nodup_nil, nofun, nofun, nofun⟩

theorem mem_of_without {entry entry' : String × List String} (h : without client entry = some entry') :
    entry'.2 = entry.2.filter (· != client) ∧ entry'.2 ≠ [] := by
  rw [without] at h
  split at h
  · cases h
  · rename_i hne
    cases h
    exact ⟨rfl, hne⟩

namespace Kept

theorem connect (hr : r.Kept) (client : String) (h : Handler) : (r.connect client h).1.Kept := by
  refine ⟨Roster.nodup_keys_put hr.clients, hr.nonempty, hr.nodup, fun entry he c hc => ?_⟩
  show (r.clients.put client h).has c = true
  rw [Roster.has_put, hr.connected entry he c hc, Bool.or_true]

theorem disconnect (hr : r.Kept) (client : String) : (r.disconnect client).1.Kept := by
  unfold Rooms.disconnect
  split
  · have hrooms : ∀ entry ∈ r.rooms.filterMap (without client), ∃ old ∈ r.rooms,
        entry.2 = old.2.filter (· != client) ∧ entry.2 ≠ [] := by
      intro entry he
      obtain ⟨old, hold, hwithout⟩ := List.mem_filterMap.1 he
      exact ⟨old, hold, mem_of_without hwithout⟩
    refine ⟨Roster.nodup_keys_erase hr.clients, fun entry he => ?_, fun entry he => ?_, fun entry he c hc => ?_⟩
    all_goals obtain ⟨old, hold, heq, hne⟩ := hrooms entry he
    · exact hne
    · rw [heq]
      exact (hr.nodup old hold).filter _
    · rw [heq] at hc
      obtain ⟨hmem, hother⟩ := List.mem_filter.1 hc
      show (r.clients.erase client).has c = true
      rw [Roster.has_erase, hother, hr.connected old hold c hmem, Bool.and_true]
  · exact hr

/-- Whom an event for a room is for. -/
theorem targets (hr : r.Kept) (room : String) :
    (r.targets room).Nodup ∧ ∀ c ∈ r.targets room, r.clients.has c = true := by
  unfold Rooms.targets
  cases hget : r.rooms.get? room with
  | none => exact ⟨List.nodup_nil, nofun⟩
  | some members => exact ⟨hr.nodup _ (Roster.mem_of_get? hget), hr.connected _ (Roster.mem_of_get? hget)⟩

theorem join? (hr : r.Kept) {r' : Rooms} {log : List Log.Entry} (hjoin : r.join? client room = some (r', log)) :
    r'.Kept := by
  unfold Rooms.join? at hjoin
  split at hjoin
  · rename_i hconnected
    cases hjoin
    obtain ⟨hnodup, hall⟩ := hr.targets room
    -- The room that is joined is as any other, whether the client was in it or not.
    have hjoined : ∀ members : List String,
        members = (if (r.targets room).contains client then r.targets room else r.targets room ++ [client]) →
        members ≠ [] ∧ members.Nodup ∧ ∀ c ∈ members, r.clients.has c = true := by
      rintro members rfl
      split
      · rename_i hmem
        exact ⟨List.ne_nil_of_mem (List.contains_iff_mem.1 hmem), hnodup, hall⟩
      · rename_i hmem
        refine ⟨by simp, ?_, fun c hc => ?_⟩
        · refine List.nodup_append.2 ⟨hnodup, by simp, fun c hc d hd => ?_⟩
          rw [List.mem_singleton.1 hd]
          rintro rfl
          exact hmem (List.contains_iff_mem.2 hc)
        · rcases List.mem_append.1 hc with hc | hc
          · exact hall c hc
          · rwa [List.mem_singleton.1 hc]
    obtain ⟨hne, hnew, hconn⟩ := hjoined _ rfl
    refine ⟨hr.clients, fun entry he => ?_, fun entry he => ?_, fun entry he => ?_⟩
    all_goals rcases Roster.mem_put he with rfl | hold
    · exact hne
    · exact hr.nonempty entry hold
    · exact hnew
    · exact hr.nodup entry hold
    · exact hconn
    · exact hr.connected entry hold
  · cases hjoin

theorem leave (hr : r.Kept) (client room : String) : (r.leave client room).1.Kept := by
  have hrooms : ∀ entry ∈ (r.leave client room).1.rooms, ∃ old ∈ r.rooms, entry.2 ≠ [] ∧ entry.2.Sublist old.2 := by
    intro entry he
    obtain ⟨old, hold, hleft⟩ := List.mem_filterMap.1 he
    refine ⟨old, hold, ?_⟩
    split at hleft
    · obtain ⟨heq, hne⟩ := mem_of_without hleft
      exact ⟨hne, heq ▸ List.filter_sublist⟩
    · cases hleft
      exact ⟨hr.nonempty entry hold, List.Sublist.refl _⟩
  refine ⟨hr.clients, fun entry he => ?_, fun entry he => ?_, fun entry he c hc => ?_⟩
  all_goals obtain ⟨old, hold, hne, hsub⟩ := hrooms entry he
  · exact hne
  · exact (hr.nodup old hold).sublist hsub
  · exact hr.connected old hold c (hsub.subset hc)

/-- Counting changes nobody's place. -/
theorem recount (hr : r.Kept) (tally : Tally) : Kept { r with toTally := tally } :=
  ⟨hr.clients, hr.nonempty, hr.nodup, hr.connected⟩

end Kept

end Rooms

end PoolFeed
