import SlidingSync.Room
import Mathlib.Data.List.Nodup
import Mathlib.Data.List.InsertIdx

/-! # Positions in an order

An order without repetition has each of its rooms at one position, and taking the room out is
dropping that position.
-/

namespace SlidingSync.Room

variable {order : List RoomId} {room : RoomId} {position : Nat}

theorem erase_eq (order : List RoomId) (room : RoomId) :
    order.erase room = (indexOf? order room).elim order order.eraseIdx := by
  have hindex : order.idxOf? room = indexOf? order room := rfl
  rw [List.erase_eq_eraseIdx, hindex]
  cases indexOf? order room <;> rfl

theorem eraseIdx_of_indexOf? (distinct : order.Nodup) (h : indexOf? order room = some position) :
    order.eraseIdx position = order.filter (· != room) := by
  rw [← distinct.erase_eq_filter, erase_eq, h]
  rfl

theorem eq_filter_of_indexOf?_none (distinct : order.Nodup) (h : indexOf? order room = none) :
    order = order.filter (· != room) := by
  rw [← distinct.erase_eq_filter, erase_eq, h]
  rfl

theorem getElem_of_indexOf? (h : indexOf? order room = some position) :
    ∃ hlt : position < order.length, order[position] = room := by
  obtain ⟨hlt, hroom, -⟩ := List.findIdx?_eq_some_iff_getElem.mp h
  exact ⟨hlt, by simpa using hroom⟩

theorem not_mem_of_indexOf?_none (distinct : order.Nodup) (h : indexOf? order room = none) :
    room ∉ order := by
  intro hroom
  rw [eq_filter_of_indexOf?_none distinct h] at hroom
  simp at hroom

theorem insertIdx_filter (distinct : order.Nodup) (h : indexOf? order room = some position) :
    (order.filter (· != room)).insertIdx position room = order := by
  obtain ⟨hlt, hroom⟩ := getElem_of_indexOf? h
  rw [← eraseIdx_of_indexOf? distinct h, ← hroom]
  exact List.insertIdx_eraseIdx_getElem hlt

theorem length_filter_of_indexOf? (distinct : order.Nodup)
    (h : indexOf? order room = some position) :
    (order.filter (· != room)).length + 1 = order.length ∧ position < order.length := by
  obtain ⟨hlt, -⟩ := getElem_of_indexOf? h
  rw [← eraseIdx_of_indexOf? distinct h, List.length_eraseIdx_of_lt hlt]
  omega

theorem indexOf?_eq_some_iff (distinct : order.Nodup) :
    indexOf? order room = some position ↔ order[position]? = some room := by
  constructor
  · intro h
    obtain ⟨hlt, hroom⟩ := getElem_of_indexOf? h
    rw [List.getElem?_eq_getElem hlt, hroom]
  · intro h
    obtain ⟨hlt, hroom⟩ := List.getElem?_eq_some_iff.mp h
    -- No earlier position has the room, as the order would repeat it.
    refine List.findIdx?_eq_some_iff_getElem.mpr ⟨hlt, by simp [hroom], fun earlier hearlier => ?_⟩
    intro hsame
    have heq : order[earlier] = order[position] := by rw [hroom]; simpa using hsame
    have := (List.Nodup.getElem_inj_iff distinct).mp heq
    omega

end SlidingSync.Room
