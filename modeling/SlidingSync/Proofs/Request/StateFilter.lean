import SlidingSync.RequiredState
import Mathlib.Tactic.Tauto

/-! # State filters mean their patterns

Compiling spreads the patterns of a subscription over three places of a filter, where a wildcard
absorbs what stands beside it. Each pattern adds exactly the events that it matches, whatever was
compiled before, so a filter wants an event when one of its patterns matches. Neither the order of
the patterns nor the way in which subscriptions were combined can be seen in the answers.
-/

namespace SlidingSync

/--
Whether the state event is one that the pattern asks for on behalf of the user. The
reserved key asks for nothing.
-/
def StatePattern.Matches (p : StatePattern) (user : UserId) (eventType stateKey : String) : Prop :=
  p.stateKey ≠ lazyKey ∧
    (p.eventType = wildcard ∨ p.eventType = eventType) ∧
      (p.stateKey = wildcard ∨
        (if p.stateKey = ownKey then user.text else p.stateKey) = stateKey)

namespace StateFilter

/-! ## One pattern -/

theorem mem_pushed {list : List String} {key k : String} :
    k ∈ (if list.contains key then list else list ++ [key]) ↔ k ∈ list ∨ key = k := by
  split
  · next hseen =>
    have hmem : key ∈ list := by simpa using hseen
    constructor
    · exact .inl
    · rintro (h | rfl)
      · exact h
      · exact hmem
  · rw [List.mem_append, List.mem_singleton, eq_comm]

theorem contains_push (wanted : StateKeys) (key k : String) :
    (wanted.push key).contains k = true ↔ wanted.contains k = true ∨ key = k := by
  cases wanted with
  | all => simp [StateKeys.push, StateKeys.contains]
  | keys list =>
      have hpush : StateKeys.push (.keys list) key =
          .keys (if list.contains key then list else list ++ [key]) := by
        unfold StateKeys.push
        dsimp only
        split <;> rfl
      simpa only [hpush, StateKeys.contains, List.contains_iff_mem] using mem_pushed

/-- Keys wanted of one event type, no keys where the type is not named. -/
def keysOf (filter : StateFilter) (eventType : String) : StateKeys :=
  (filter.eventTypes.get? eventType).getD (.keys [])

theorem includes_iff {filter : StateFilter} {eventType stateKey : String} :
    filter.includes eventType stateKey = true ↔
      filter.allState = true ∨ stateKey ∈ filter.anyTypeKeys ∨
        (filter.keysOf eventType).contains stateKey = true := by
  unfold includes keysOf
  cases filter.eventTypes.get? eventType <;> simp [StateKeys.contains, or_assoc]

theorem keysOf_insert (filter : StateFilter) (type eventType : String) (wanted : StateKeys) :
    keysOf { filter with eventTypes := filter.eventTypes.insert type wanted } eventType =
      if eventType = type then wanted else filter.keysOf eventType := by
  unfold keysOf
  dsimp only
  rw [SortedMap.get?_insert]
  split <;> rfl

/-! What one more pattern changes, by the place of the filter that it goes to. -/

theorem addPattern_all {user : UserId} {filter : StateFilter} {p : StatePattern}
    (hlazy : p.stateKey ≠ lazyKey) (htype : p.eventType = wildcard) (hkey : p.stateKey = wildcard) :
    addPattern user filter p = { filter with allState := true } := by
  unfold addPattern
  rw [if_neg hlazy, if_pos htype, if_pos hkey]

theorem addPattern_anyType {user : UserId} {filter : StateFilter} {p : StatePattern}
    (hlazy : p.stateKey ≠ lazyKey) (htype : p.eventType = wildcard) (hkey : p.stateKey ≠ wildcard) :
    addPattern user filter p =
      { filter with
        anyTypeKeys :=
          if filter.anyTypeKeys.contains (resolveKey user p.stateKey) then filter.anyTypeKeys
          else filter.anyTypeKeys ++ [resolveKey user p.stateKey] } := by
  unfold addPattern
  rw [if_neg hlazy, if_pos htype, if_neg hkey]
  split <;> rfl

theorem addPattern_ofType {user : UserId} {filter : StateFilter} {p : StatePattern}
    (hlazy : p.stateKey ≠ lazyKey) (htype : p.eventType ≠ wildcard) :
    addPattern user filter p =
      { filter with
        eventTypes := filter.eventTypes.insert p.eventType
          (if p.stateKey = wildcard then .all
            else (filter.keysOf p.eventType).push (resolveKey user p.stateKey)) } := by
  unfold addPattern
  rw [if_neg hlazy, if_neg htype]
  rfl

theorem includes_addPattern (user : UserId) (filter : StateFilter) (p : StatePattern)
    (eventType stateKey : String) :
    (addPattern user filter p).includes eventType stateKey = true ↔
      filter.includes eventType stateKey = true ∨ p.Matches user eventType stateKey := by
  -- The cases are the places that a pattern can go to: nowhere, any type, one type.
  by_cases hlazy : p.stateKey = lazyKey
  · have hadd : addPattern user filter p = filter := if_pos hlazy
    have hmiss : ¬ p.Matches user eventType stateKey := fun h => h.1 hlazy
    rw [hadd, or_iff_left hmiss]
  by_cases htype : p.eventType = wildcard
  · by_cases hkey : p.stateKey = wildcard
    · have hmatch : p.Matches user eventType stateKey := ⟨hlazy, .inl htype, .inl hkey⟩
      rw [addPattern_all hlazy htype hkey, includes_iff]
      exact iff_of_true (.inl rfl) (.inr hmatch)
    · have hmatch : p.Matches user eventType stateKey ↔ resolveKey user p.stateKey = stateKey :=
        ⟨fun h => h.2.2.resolve_left hkey, fun h => ⟨hlazy, .inl htype, .inr h⟩⟩
      rw [addPattern_anyType hlazy htype hkey, includes_iff, includes_iff, hmatch, mem_pushed]
      change _ ∨ _ ∨ (filter.keysOf eventType).contains stateKey = true ↔ _
      tauto
  · rw [addPattern_ofType hlazy htype, includes_iff, includes_iff, keysOf_insert]
    by_cases heq : eventType = p.eventType
    -- Keys named beside a wildcard change nothing, whichever came first.
    · have hmatch : p.Matches user eventType stateKey ↔
          p.stateKey = wildcard ∨ resolveKey user p.stateKey = stateKey :=
        ⟨fun h => h.2.2, fun h => ⟨hlazy, .inr heq.symm, h⟩⟩
      rw [if_pos heq, hmatch, heq]
      by_cases hkey : p.stateKey = wildcard
      · simp [hkey, StateKeys.contains]
      · rw [if_neg hkey, contains_push]
        tauto
    · have hmiss : ¬ p.Matches user eventType stateKey := by
        rintro ⟨-, hwild | hsame, -⟩
        · exact htype hwild
        · exact heq hsame.symm
      rw [if_neg heq, or_iff_left hmiss]

/-! ## All patterns -/

theorem includes_foldl (user : UserId) (patterns : List StatePattern) (filter : StateFilter)
    (eventType stateKey : String) :
    (patterns.foldl (addPattern user) filter).includes eventType stateKey = true ↔
      filter.includes eventType stateKey = true ∨
        ∃ p ∈ patterns, p.Matches user eventType stateKey := by
  induction patterns generalizing filter with
  | nil => simp
  | cons p rest ih =>
      simp only [List.foldl_cons, ih, includes_addPattern, List.mem_cons, exists_eq_or_imp, or_assoc]

end StateFilter

namespace RoomSubscription

variable {user : UserId} {eventType stateKey : String}

theorem includes_compile {sub : RoomSubscription} :
    (sub.compile user).includes eventType stateKey = true ↔
      ∃ p ∈ sub.requiredState, p.Matches user eventType stateKey := by
  unfold compile
  rw [StateFilter.includes_foldl]
  exact or_iff_right (by simp [StateFilter.includes_iff, StateFilter.keysOf, StateKeys.contains])

theorem includes_combine {a b : RoomSubscription} :
    ((a.combine b).compile user).includes eventType stateKey = true ↔
      (a.compile user).includes eventType stateKey = true ∨
        (b.compile user).includes eventType stateKey = true := by
  simp only [includes_compile, combine, List.mem_append, or_and_right, exists_or]

theorem includes_congr {a b : RoomSubscription}
    (same : ∀ p, p ∈ a.requiredState ↔ p ∈ b.requiredState) :
    (a.compile user).includes eventType stateKey = (b.compile user).includes eventType stateKey := by
  rw [Bool.eq_iff_iff, includes_compile, includes_compile]
  simp only [same]

/-! ## Combinations -/

/-- Subscriptions combined two at a time in some grouping. -/
inductive Combination
  | one (sub : RoomSubscription)
  | both (left right : Combination)

namespace Combination

def total : Combination → RoomSubscription
  | one sub => sub
  | both left right => left.total.combine right.total

def parts : Combination → List RoomSubscription
  | one sub => [sub]
  | both left right => left.parts ++ right.parts

theorem includes_total (c : Combination) :
    (c.total.compile user).includes eventType stateKey = true ↔
      ∃ sub ∈ c.parts, (sub.compile user).includes eventType stateKey = true := by
  induction c with
  | one sub => simp [total, parts]
  | both left right ihl ihr =>
      rw [total, includes_combine, ihl, ihr]
      simp only [parts, List.mem_append, or_and_right, exists_or]

theorem includes_total_congr {a b : Combination} (same : ∀ sub, sub ∈ a.parts ↔ sub ∈ b.parts) :
    (a.total.compile user).includes eventType stateKey =
      (b.total.compile user).includes eventType stateKey := by
  rw [Bool.eq_iff_iff, includes_total, includes_total]
  simp only [same]

end Combination

/--
A compiled filter wants the events that a pattern matches. A combined subscription
wants what either part wants, so neither order nor repetition of the patterns, and
neither grouping nor order of combined subscriptions, makes a difference.
-/
theorem filter_means_patterns :
    (∀ (sub : RoomSubscription) (user : UserId) (eventType stateKey : String),
        (sub.compile user).includes eventType stateKey = true ↔
          ∃ p ∈ sub.requiredState, p.Matches user eventType stateKey) ∧
      (∀ (a b : RoomSubscription) (user : UserId) (eventType stateKey : String),
        ((a.combine b).compile user).includes eventType stateKey =
          ((a.compile user).includes eventType stateKey ||
            (b.compile user).includes eventType stateKey)) ∧
      (∀ a b : RoomSubscription, (∀ p, p ∈ a.requiredState ↔ p ∈ b.requiredState) →
        ∀ (user : UserId) (eventType stateKey : String),
          (a.compile user).includes eventType stateKey =
            (b.compile user).includes eventType stateKey) ∧
      ∀ a b : Combination, (∀ sub, sub ∈ a.parts ↔ sub ∈ b.parts) →
        ∀ (user : UserId) (eventType stateKey : String),
          (a.total.compile user).includes eventType stateKey =
            (b.total.compile user).includes eventType stateKey := by
  refine ⟨fun _ _ _ _ => includes_compile, ?_, fun _ _ same _ _ _ => includes_congr same,
    fun _ _ same _ _ _ => Combination.includes_total_congr same⟩
  intro a b user eventType stateKey
  rw [Bool.eq_iff_iff, Bool.or_eq_true]
  exact includes_combine

end RoomSubscription

end SlidingSync
