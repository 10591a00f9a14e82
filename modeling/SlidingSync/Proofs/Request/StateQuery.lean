import SlidingSync.Proofs.Request.StateFilter
import Mathlib.Data.List.Induction

/-! # The query of a state filter

A filter that no pattern of any type went into is decided by event type, and what it wants of each
type can be fetched beforehand. What stands under a type is read off the patterns that name it: all
keys as soon as one of them asks for all, otherwise the keys they ask for, each where it was first
asked for. So a fetch by the query leaves out only events that the filter would refuse, and it does
leave them out whenever the patterns name types and none of them asks for any type.
-/

namespace SlidingSync

theorem eraseDups_concat {α : Type} [BEq α] [LawfulBEq α] (list : List α) (last : α) :
    (list ++ [last]).eraseDups =
      if list.contains last then list.eraseDups else list.eraseDups ++ [last] := by
  rw [List.eraseDups_append]
  by_cases h : last ∈ list <;> simp [List.removeAll, List.eraseDups_cons, h]

theorem nodup_eraseDups {α : Type} [BEq α] [LawfulBEq α] (list : List α) :
    list.eraseDups.Nodup := by
  induction list using List.reverseRecOn with
  | nil => simp
  | append_singleton before last ih =>
      rw [eraseDups_concat]
      split
      · exact ih
      · next hlast =>
        have hnew : ∀ first ∈ before.eraseDups, first ≠ last := by
          intro first hfirst heq
          exact hlast (by simpa [heq] using hfirst)
        exact List.nodup_append.mpr ⟨ih, by simp, by simpa using hnew⟩

theorem UserId.head?_text (user : UserId) : user.text.toList.head? = some '@' := by
  have haccepted := user.accepted
  unfold UserId.fault? at haccepted
  cases hsigil : sigilFault? '@' user.text with
  | some fault => simp [hsigil] at haccepted
  | none =>
      unfold sigilFault? at hsigil
      by_contra hhead
      rw [if_neg hhead] at hsigil
      split at hsigil <;> simp at hsigil

namespace StateFilter

/-- What patterns that all name one event type want of it, nothing when there are none. -/
def wantedBy (user : UserId) (patterns : List StatePattern) : Option StateKeys :=
  if patterns = [] then none
  else if ∃ p ∈ patterns, p.stateKey = wildcard then some .all
  else some (.keys (patterns.map fun p => resolveKey user p.stateKey).eraseDups)

/-- The patterns that name the event type, the reserved key left out. -/
def naming (eventType : String) (patterns : List StatePattern) : List StatePattern :=
  patterns.filter fun p => p.eventType = eventType ∧ p.stateKey ≠ lazyKey

theorem naming_concat (eventType : String) (patterns : List StatePattern) (p : StatePattern) :
    naming eventType (patterns ++ [p]) = naming eventType patterns ++
      if p.eventType = eventType ∧ p.stateKey ≠ lazyKey then [p] else [] := by
  unfold naming
  rw [List.filter_append]
  congr 1
  split
  · next hasked => simp [hasked]
  · next hasked => simpa using hasked

theorem wantedBy_eq_none_iff {user : UserId} {patterns : List StatePattern} :
    wantedBy user patterns = none ↔ patterns = [] := by
  unfold wantedBy
  split
  · next hnil => exact iff_of_true rfl hnil
  · next hne => split <;> exact iff_of_false (by simp) hne

theorem wantedBy_eq_keys {user : UserId} {patterns : List StatePattern} {list : List String}
    (h : wantedBy user patterns = some (.keys list)) :
    patterns ≠ [] ∧ (∀ p ∈ patterns, p.stateKey ≠ wildcard) ∧
      list = (patterns.map fun p => resolveKey user p.stateKey).eraseDups := by
  unfold wantedBy at h
  split at h
  · simp at h
  · next hne =>
    split at h
    · simp at h
    · next hnamed =>
      refine ⟨hne, fun p hp hkey => hnamed ⟨p, hp, hkey⟩, ?_⟩
      simpa using h.symm

theorem push_eraseDups (list : List String) (key : String) :
    (StateKeys.keys list.eraseDups).push key = .keys (list ++ [key]).eraseDups := by
  have hcontains : list.eraseDups.contains key = list.contains key := by
    rw [Bool.eq_iff_iff]
    simp
  unfold StateKeys.push
  dsimp only
  rw [eraseDups_concat, hcontains]
  split <;> rfl

theorem wantedBy_concat (user : UserId) (patterns : List StatePattern) (p : StatePattern) :
    wantedBy user (patterns ++ [p]) =
      some (if p.stateKey = wildcard then .all
        else ((wantedBy user patterns).getD (.keys [])).push (resolveKey user p.stateKey)) := by
  unfold wantedBy
  rw [if_neg (by simp)]
  by_cases hkey : p.stateKey = wildcard
  · have hall : ∃ q ∈ patterns ++ [p], q.stateKey = wildcard := ⟨p, by simp, hkey⟩
    rw [if_pos hall, if_pos hkey]
  have hsame : (∃ q ∈ patterns ++ [p], q.stateKey = wildcard) ↔
      ∃ q ∈ patterns, q.stateKey = wildcard := by
    simp [hkey, or_and_right, exists_or]
  rw [if_neg hkey]
  by_cases hall : ∃ q ∈ patterns, q.stateKey = wildcard
  · have hne : patterns ≠ [] := by
      obtain ⟨q, hq, -⟩ := hall
      exact List.ne_nil_of_mem hq
    rw [if_pos (hsame.mpr hall), if_neg hne, if_pos hall]
    rfl
  · rw [if_neg (mt hsame.mp hall), if_neg hall, List.map_append, List.map_singleton]
    by_cases hnil : patterns = []
    · subst hnil
      rfl
    · rw [if_neg hnil, Option.getD_some, push_eraseDups]

/-- A compiled filter has under a type what the patterns that name the type want. -/
theorem get?_foldl_addPattern (user : UserId) (patterns : List StatePattern) (eventType : String) :
    (patterns.foldl (addPattern user) {}).eventTypes.get? eventType =
      if eventType = wildcard then none else wantedBy user (naming eventType patterns) := by
  induction patterns using List.reverseRecOn with
  | nil => simp [naming, wantedBy]
  | append_singleton before p ih =>
      rw [List.foldl_append, List.foldl_cons, List.foldl_nil, naming_concat]
      generalize before.foldl (addPattern user) {} = filter at ih ⊢
      -- A pattern that does not go to a type of its own changes neither side.
      by_cases hlazy : p.stateKey = lazyKey
      · have hadd : addPattern user filter p = filter := if_pos hlazy
        rw [hadd, if_neg (not_and_not_right.mpr fun _ => hlazy), List.append_nil, ih]
      by_cases htype : p.eventType = wildcard
      · have hadd : (addPattern user filter p).eventTypes = filter.eventTypes := by
          by_cases hkey : p.stateKey = wildcard
          · rw [addPattern_all hlazy htype hkey]
          · rw [addPattern_anyType hlazy htype hkey]
        rw [hadd, ih]
        by_cases hwild : eventType = wildcard
        · rw [if_pos hwild, if_pos hwild]
        · have hother : ¬(p.eventType = eventType ∧ p.stateKey ≠ lazyKey) :=
            fun h => hwild (h.1.symm.trans htype)
          rw [if_neg hother, List.append_nil]
      · rw [addPattern_ofType hlazy htype]
        dsimp only
        rw [SortedMap.get?_insert]
        by_cases heq : eventType = p.eventType
        · subst heq
          have hown : p.eventType = p.eventType ∧ p.stateKey ≠ lazyKey := ⟨rfl, hlazy⟩
          unfold keysOf
          rw [if_pos rfl, if_neg htype, if_pos hown, wantedBy_concat, ih, if_neg htype]
        · have hother : ¬(p.eventType = eventType ∧ p.stateKey ≠ lazyKey) :=
            fun h => heq h.1.symm
          rw [if_neg heq, ih, if_neg hother, List.append_nil]

/-- A pattern of any type leaves a mark in the filter that no later one takes away. -/
theorem anyType_foldl_addPattern (user : UserId) (patterns : List StatePattern) :
    ((patterns.foldl (addPattern user) {}).allState = true ∨
        (patterns.foldl (addPattern user) {}).anyTypeKeys ≠ []) ↔
      naming wildcard patterns ≠ [] := by
  induction patterns using List.reverseRecOn with
  | nil => simp [naming]
  | append_singleton before p ih =>
      rw [List.foldl_append, List.foldl_cons, List.foldl_nil, naming_concat]
      generalize before.foldl (addPattern user) {} = filter at ih ⊢
      by_cases hlazy : p.stateKey = lazyKey
      · have hadd : addPattern user filter p = filter := if_pos hlazy
        rw [hadd, if_neg (by simp [hlazy]), List.append_nil]
        exact ih
      by_cases htype : p.eventType = wildcard
      · rw [if_pos ⟨htype, hlazy⟩]
        refine iff_of_true ?_ (by simp)
        by_cases hkey : p.stateKey = wildcard
        · rw [addPattern_all hlazy htype hkey]
          exact .inl rfl
        · rw [addPattern_anyType hlazy htype hkey]
          refine .inr ?_
          dsimp only
          split
          · next hlisted => exact List.ne_nil_of_mem (List.contains_iff_mem.mp hlisted)
          · simp
      · have hother : ¬(p.eventType = wildcard ∧ p.stateKey ≠ lazyKey) := fun h => htype h.1
        rw [if_neg hother, List.append_nil, addPattern_ofType hlazy htype]
        exact ih

/-! ## Fetching -/

/-- What storage has of the events, by type and state key, for a query; an empty query asks for all. -/
def fetch (query : SortedMap String StateKeys) (events : List (String × String)) :
    List (String × String) :=
  if query.isEmpty then events
  else events.filter fun e => (query.get? e.1).any fun wanted => wanted.contains e.2

def select (filter : StateFilter) (events : List (String × String)) : List (String × String) :=
  events.filter fun e => filter.includes e.1 e.2

theorem get?_query {filter : StateFilter} {eventType : String} {wanted : StateKeys}
    (h : filter.query.get? eventType = some wanted) :
    filter.eventTypes.get? eventType = some wanted := by
  unfold query at h
  split at h
  · simp at h
  · exact h

theorem query_eq_of_nonempty {filter : StateFilter} (h : filter.query.isEmpty = false) :
    filter.query = filter.eventTypes ∧ filter.allState = false ∧ filter.anyTypeKeys = [] := by
  unfold query at h ⊢
  split at h
  · simp [SortedMap.isEmpty, SortedMap.empty] at h
  · next hwide =>
    rw [if_neg hwide]
    simpa using hwide

/-- A query that is not empty fetches exactly what the filter wants. -/
theorem fetch_query_of_nonempty {filter : StateFilter} (h : filter.query.isEmpty = false)
    (events : List (String × String)) : fetch filter.query events = filter.select events := by
  obtain ⟨hquery, hall, hany⟩ := query_eq_of_nonempty h
  unfold fetch select
  rw [if_neg (by simp [h])]
  apply List.filter_congr
  intro e _
  rw [hquery, includes, hall, hany]
  cases filter.eventTypes.get? e.1 <;> simp

theorem select_fetch_query (filter : StateFilter) (events : List (String × String)) :
    filter.select (fetch filter.query events) = filter.select events := by
  cases h : filter.query.isEmpty with
  | true =>
      unfold fetch
      rw [if_pos h]
  | false =>
      rw [fetch_query_of_nonempty h]
      unfold select
      rw [List.filter_filter]
      simp

/-- Keys that are asked for by name are none of the tokens. -/
theorem resolveKey_not_token (user : UserId) {key : String} (hwild : key ≠ wildcard)
    (hlazy : key ≠ lazyKey) : resolveKey user key ∉ [wildcard, ownKey, lazyKey] := by
  have hhead := user.head?_text
  unfold resolveKey
  split
  · intro htoken
    simp only [List.mem_cons, List.not_mem_nil, or_false] at htoken
    rcases htoken with h | h | h <;> rw [h] at hhead <;> revert hhead <;> decide
  · next hown => simp [hwild, hown, hlazy]

end StateFilter

namespace RoomSubscription

open StateFilter

theorem query_keys {sub : RoomSubscription} {user : UserId} {eventType : String}
    {list : List String} (h : (sub.compile user).query.get? eventType = some (.keys list)) :
    wantedBy user (naming eventType sub.requiredState) = some (.keys list) := by
  have htypes := get?_query h
  rw [compile, get?_foldl_addPattern] at htypes
  split at htypes
  · simp at htypes
  · exact htypes

theorem query_key_not_token {sub : RoomSubscription} {user : UserId} {eventType : String}
    {list : List String} (h : (sub.compile user).query.get? eventType = some (.keys list))
    {key : String} (hkey : key ∈ list) : key ∉ [wildcard, ownKey, lazyKey] := by
  obtain ⟨-, hnamed, rfl⟩ := wantedBy_eq_keys (query_keys h)
  rw [List.mem_eraseDups] at hkey
  obtain ⟨p, hp, rfl⟩ := List.mem_map.mp hkey
  have hasked : p.eventType = eventType ∧ p.stateKey ≠ lazyKey := by
    simpa using (List.mem_filter.mp hp).2
  exact resolveKey_not_token user (hnamed p hp) hasked.2

/-- A query narrows the fetch exactly when some pattern names a type and none asks for any type. -/
theorem query_nonempty_iff (sub : RoomSubscription) (user : UserId) :
    (sub.compile user).query.isEmpty = false ↔
      naming wildcard sub.requiredState = [] ∧
        ∃ eventType, naming eventType sub.requiredState ≠ [] := by
  have hmark := anyType_foldl_addPattern user sub.requiredState
  have htypes := get?_foldl_addPattern user sub.requiredState
  rw [← compile] at hmark htypes
  constructor
  · intro hquery
    obtain ⟨heq, hall, hany⟩ := query_eq_of_nonempty hquery
    have hwild : naming wildcard sub.requiredState = [] := by
      by_contra hne
      simpa [hall, hany] using hmark.mpr hne
    rw [heq, SortedMap.isEmpty_eq_false_iff] at hquery
    obtain ⟨eventType, wanted, hget⟩ := hquery
    refine ⟨hwild, eventType, fun hnil => ?_⟩
    rw [htypes, hnil, wantedBy_eq_none_iff.mpr rfl] at hget
    simp at hget
  · rintro ⟨hwild, eventType, hnamed⟩
    have hunmarked : ¬((sub.compile user).allState = true ∨
        (sub.compile user).anyTypeKeys ≠ []) := fun h => hmark.mp h hwild
    have hquery : (sub.compile user).query = (sub.compile user).eventTypes := by
      unfold query
      exact if_neg (by simpa using hunmarked)
    have hother : eventType ≠ wildcard := fun h => hnamed (h ▸ hwild)
    have hwanted : wantedBy user (naming eventType sub.requiredState) ≠ none :=
      mt wantedBy_eq_none_iff.mp hnamed
    obtain ⟨wanted, hsome⟩ := Option.ne_none_iff_exists'.mp hwanted
    rw [hquery, SortedMap.isEmpty_eq_false_iff]
    exact ⟨eventType, wanted, by rw [htypes, if_neg hother, hsome]⟩

/--
A narrow fetch from storage loses no event that the filter wants. A query that is
not empty is exact, and it is empty only when some pattern asks for any type or none
asks for a type. The keys that it lists under a type are those that the patterns
ask for, where they were first asked for, and none of them is a token.
-/
theorem query_loses_nothing (sub : RoomSubscription) (user : UserId) :
    let filter := sub.compile user
    (∀ events, filter.select (fetch filter.query events) = filter.select events) ∧
      (filter.query.isEmpty = false → ∀ events, ∀ e ∈ fetch filter.query events,
        filter.includes e.1 e.2 = true) ∧
      (filter.query.isEmpty = false ↔ naming wildcard sub.requiredState = [] ∧
        ∃ eventType, naming eventType sub.requiredState ≠ []) ∧
      ∀ eventType list, filter.query.get? eventType = some (.keys list) →
        list ≠ [] ∧ list.Nodup ∧
          list = ((naming eventType sub.requiredState).map fun p =>
            resolveKey user p.stateKey).eraseDups ∧
          wildcard ∉ list ∧ ownKey ∉ list ∧ lazyKey ∉ list := by
  refine ⟨select_fetch_query _, ?_, query_nonempty_iff sub user, ?_⟩
  · intro hquery events e he
    rw [fetch_query_of_nonempty hquery] at he
    exact (List.mem_filter.mp he).2
  · intro eventType list h
    obtain ⟨hnaming, -, hlist⟩ := wantedBy_eq_keys (query_keys h)
    have htoken : ∀ token ∈ [wildcard, ownKey, lazyKey], token ∉ list := fun token hin hlisted =>
      query_key_not_token h hlisted hin
    refine ⟨?_, hlist ▸ nodup_eraseDups _, hlist, htoken _ (by simp), htoken _ (by simp),
      htoken _ (by simp)⟩
    obtain ⟨p, hp⟩ := List.exists_mem_of_ne_nil _ hnaming
    have hkey : resolveKey user p.stateKey ∈ list := by
      rw [hlist, List.mem_eraseDups]
      exact List.mem_map.mpr ⟨p, hp, rfl⟩
    exact List.ne_nil_of_mem hkey

end RoomSubscription

end SlidingSync
