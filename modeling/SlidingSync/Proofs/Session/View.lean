import SlidingSync.Proofs.Cache.Rooms
import SlidingSync.Proofs.Order.Position
import SlidingSync.Proofs.Request.StateFilter
import SlidingSync.Proofs.Session.Runs

/-! # What a client gets of a room

A room is covered by its own subscription and by the subscription of every list that last showed it
inside a window. The view of a room asks for the state that one of these asks for, and for as many
events as the most demanding of them. No subscription in force goes beyond the limit of the
configuration, since each was taken over from a body that passed the check.
-/

namespace SlidingSync

namespace RoomSubscription

/-! ## Unions of subscriptions -/

theorem includes_foldl_combine {user : UserId} {eventType stateKey : String}
    (first : RoomSubscription) (rest : List RoomSubscription) :
    ((rest.foldl combine first).compile user).includes eventType stateKey = true ↔
      ∃ sub ∈ first :: rest, (sub.compile user).includes eventType stateKey = true := by
  induction rest generalizing first with
  | nil => simp
  | cons second rest ih =>
      rw [List.foldl_cons, ih]
      simp only [List.mem_cons, exists_eq_or_imp, includes_combine, or_assoc]

/-- A limit that one of the subscriptions has, and that none exceeds. -/
structure LargestLimit (among : RoomSubscription → Prop) (limit : UInt64) : Prop where
  reached : ∃ sub, among sub ∧ sub.timelineLimit = limit
  largest : ∀ sub, among sub → sub.timelineLimit ≤ limit

theorem limit_combine (a b : RoomSubscription) :
    (a.combine b).timelineLimit =
      if a.timelineLimit ≤ b.timelineLimit then b.timelineLimit else a.timelineLimit :=
  rfl

theorem limit_combine_le_iff {a b : RoomSubscription} {bound : UInt64} :
    (a.combine b).timelineLimit ≤ bound ↔ a.timelineLimit ≤ bound ∧ b.timelineLimit ≤ bound := by
  rw [limit_combine]
  split
  · next hle => exact ⟨fun h => ⟨UInt64.le_trans hle h, h⟩, And.right⟩
  · next hle =>
    have hge : b.timelineLimit ≤ a.timelineLimit := UInt64.le_of_lt (UInt64.not_le.mp hle)
    exact ⟨fun h => ⟨h, UInt64.le_trans hge h⟩, And.left⟩

theorem limit_foldl_le_iff {bound : UInt64} (first : RoomSubscription)
    (rest : List RoomSubscription) :
    (rest.foldl combine first).timelineLimit ≤ bound ↔
      ∀ sub ∈ first :: rest, sub.timelineLimit ≤ bound := by
  induction rest generalizing first with
  | nil => simp
  | cons second rest ih =>
      rw [List.foldl_cons, ih]
      simp only [List.mem_cons, forall_eq_or_imp, limit_combine_le_iff, and_assoc]

theorem limit_foldl_reached (first : RoomSubscription) (rest : List RoomSubscription) :
    ∃ sub ∈ first :: rest, sub.timelineLimit = (rest.foldl combine first).timelineLimit := by
  induction rest generalizing first with
  | nil => exact ⟨first, by simp, rfl⟩
  | cons second rest ih =>
      obtain ⟨sub, hsub, hlimit⟩ := ih (first.combine second)
      rcases List.mem_cons.mp hsub with rfl | hrest
      · rw [List.foldl_cons, ← hlimit, limit_combine]
        split
        · exact ⟨second, by simp, rfl⟩
        · exact ⟨first, by simp, rfl⟩
      · exact ⟨sub, by simp [hrest], hlimit⟩

theorem largestLimit_foldl (first : RoomSubscription) (rest : List RoomSubscription) :
    LargestLimit (· ∈ first :: rest) (rest.foldl combine first).timelineLimit where
  reached := limit_foldl_reached first rest
  largest := (limit_foldl_le_iff first rest).mp (UInt64.le_refl _)

end RoomSubscription

namespace Session

variable {α : Type}

/-! ## What holds between calls -/

/-- What a session keeps of its user and its configuration, and what it may rely on. -/
structure Kept (user : UserId) (config : Config) (s : Session) : Prop extends s.Sound config where
  ofUser : s.user = user
  default : s.defaultTimelineLimit = config.defaultTimelineLimit
  checked : (s.request.getD {}).validate config.maxTimelineLimit = .ok ()
  distinct : ∀ name order, s.orders.get? name = some order → order.Nodup

variable {user : UserId} {config : Config} {s : Session}

theorem kept_new (user : UserId) (config : Config) : (new user config).Kept user config where
  toSound := sound_new user config
  ofUser := rfl
  default := rfl
  checked := Request.validate_default config.maxTimelineLimit
  distinct := fun _ _ h => by simp [new] at h

theorem nodup_shown {rooms : List Room} (distinct : (rooms.map (·.id)).Nodup) (body : Request)
    {name : String} {order : List RoomId}
    (hold : ∀ old, s.orders.get? name = some old → old.Nodup)
    (h : (s.shown rooms body).orders.get? name = some order) : order.Nodup := by
  have hseen := congrArg Prod.snd (shown_get? s rooms body name)
  rw [h] at hseen
  cases hdelta : ListDelta.between ((s.request.getD {}).lists.get? name)
      ((Request.merge s.request body).1.lists.get? name) with
  | none =>
      rw [hdelta] at hseen
      exact hold order hseen.symm
  | some delta =>
      rw [hdelta, Option.elim_some] at hseen
      unfold showChangeOf at hseen
      split at hseen
      · contradiction
      · next curr _ =>
        rw [Option.some.inj hseen]
        exact RoomList.nodup_sorted distinct

theorem nodup_noticed {rooms : List Room} (distinct : (rooms.map (·.id)).Nodup) (room : RoomId)
    {name : String} {order : List RoomId}
    (hold : ∀ old, s.orders.get? name = some old → old.Nodup)
    (h : (s.noticed rooms room).orders.get? name = some order) : order.Nodup := by
  have hseen := congrArg Prod.snd (noticed_get? s rooms room name)
  rw [h] at hseen
  cases hlist : (s.request.getD {}).lists.get? name with
  | none =>
      rw [hlist] at hseen
      exact hold order hseen.symm
  | some list =>
      rw [hlist] at hseen
      rw [Option.some.inj hseen]
      exact RoomList.nodup_sorted distinct

theorem Kept.handleRequest (h : s.Kept user config) (cache : Cache α) (body : Request) :
    (s.handleRequest cache.snapshot body).2.Kept user config := by
  cases hv : body.validate s.maxTimelineLimit with
  | error fault =>
      rw [handleRequest_refused hv]
      exact h
  | ok _ =>
      have hsound := h.toSound.handleRequest cache.snapshot body
      rw [handleRequest_accepted h.sortsKnown hv] at hsound ⊢
      -- Only the body is checked; what it is merged into passed the check when it came.
      rw [h.limit] at hv
      exact
        { toSound := hsound
          ofUser := h.ofUser
          default := h.default
          checked := Request.validate_merge h.checked hv
          distinct := fun name _ =>
            nodup_shown cache.nodup_snapshot body (h.distinct name) }

theorem Kept.handleEvent (h : s.Kept user config) (cache : Cache α) (room : RoomId) :
    (s.handleEvent cache.snapshot room).2.Kept user config := by
  have hsound := h.toSound.handleEvent cache.snapshot room
  rw [handleEvent_eq h.sortsKnown] at hsound ⊢
  exact
    { toSound := hsound
      ofUser := h.ofUser
      default := h.default
      checked := h.checked
      distinct := fun name _ => nodup_noticed cache.nodup_snapshot room (h.distinct name) }

theorem Kept.call (h : s.Kept user config) (c : Call α) : (s.call c).Kept user config := by
  cases c with
  | request cache body => exact h.handleRequest cache body
  | event cache event => exact h.handleEvent cache event.room

theorem kept_after (user : UserId) (config : Config) (calls : List (Call α)) :
    (after user config calls).Kept user config :=
  after_of_call (kept_new user config) (fun _ c h => h.call c) calls

/-! ## Subscriptions that cover a room -/

/--
The subscription is the room's own, or that of a list whose last shown order has the
room at a position inside one of the list's windows.
-/
inductive Covers (s : Session) (room : RoomId) : RoomSubscription → Prop
  | own {request : Request} {sub : RoomSubscription} (inForce : s.request = some request)
      (subscribed : request.subscriptions.get? room = some sub) : Covers s room sub
  | shown {request : Request} {name : String} {list : RoomList} {order : List RoomId}
      {position : Nat} {w : Window} (inForce : s.request = some request)
      (named : request.lists.get? name = some list) (last : s.orders.get? name = some order)
      (placed : order[position]? = some room) (window : w ∈ list.ranges.windows)
      (inside : w.first.toNat ≤ position ∧ position ≤ w.last.toNat) :
      Covers s room list.subscription

theorem inside_iff {ranges : Ranges} {position : Nat} :
    ranges.inside position = true ↔
      ∃ w ∈ ranges.windows, w.first.toNat ≤ position ∧ position ≤ w.last.toNat := by
  simp [Ranges.inside, Window.contains]

theorem Kept.shows_iff (h : s.Kept user config) {name : String} {list : RoomList} {room : RoomId} :
    s.shows name list room = true ↔
      ∃ order position, s.orders.get? name = some order ∧ order[position]? = some room ∧
        ∃ w ∈ list.ranges.windows, w.first.toNat ≤ position ∧ position ≤ w.last.toNat := by
  unfold shows
  cases horder : s.orders.get? name with
  | none => simp
  | some order =>
      rw [Option.bind_some]
      -- The first position of the room is its only one.
      have hplace (position : Nat) :
          Room.indexOf? order room = some position ↔ order[position]? = some room :=
        Room.indexOf?_eq_some_iff (h.distinct name order horder)
      constructor
      · intro hshown
        split at hshown
        · next position hindex =>
          exact ⟨order, position, rfl, (hplace position).mp hindex, inside_iff.mp hshown⟩
        · contradiction
      · rintro ⟨_, position, ⟨⟩, hroom, hwindow⟩
        rw [(hplace position).mpr hroom]
        exact inside_iff.mpr hwindow

theorem Kept.mem_covering_iff (h : s.Kept user config) {room : RoomId} {sub : RoomSubscription} :
    sub ∈ s.covering room ↔ s.Covers room sub := by
  unfold covering
  cases hr : s.request with
  | none =>
      refine iff_of_false (by simp) ?_
      rintro (⟨inForce, -⟩ | ⟨inForce, -⟩) <;> simp [hr] at inForce
  | some request =>
      dsimp only
      rw [List.mem_append, Option.mem_toList, List.mem_map]
      constructor
      · rintro (hown | ⟨⟨name, list⟩, hentry, rfl⟩)
        · exact .own hr hown
        · obtain ⟨hmem, hshown⟩ := List.mem_filter.mp hentry
          obtain ⟨order, position, hlast, hplaced, w, hw, hinside⟩ := h.shows_iff.mp hshown
          exact .shown hr (SortedMap.mem_entries_iff.mp hmem) hlast hplaced hw hinside
      · intro hcovers
        cases hcovers with
        | own inForce subscribed =>
            rw [hr] at inForce
            cases inForce
            exact .inl subscribed
        | @shown _ name list order position w inForce named last placed window inside =>
            rw [hr] at inForce
            cases inForce
            refine .inr ⟨(name, list), List.mem_filter.mpr ⟨?_, ?_⟩, rfl⟩
            · exact SortedMap.mem_entries_iff.mpr named
            · exact h.shows_iff.mpr ⟨order, position, last, placed, w, window, inside⟩

theorem Kept.limit_of_covers (h : s.Kept user config) {room : RoomId} {sub : RoomSubscription}
    (covers : s.Covers room sub) : sub.timelineLimit ≤ config.maxTimelineLimit := by
  have hchecked := Request.validate_eq_ok_iff.mp h.checked
  cases covers with
  | own inForce subscribed =>
      rw [inForce] at hchecked
      exact hchecked.2 room sub subscribed
  | @shown _ name list _ _ _ inForce named =>
      rw [inForce] at hchecked
      exact (RoomList.fault?_eq_none_iff.mp (hchecked.1 name list named)).1

/-! ## Views -/

/-- The view asks for what the subscriptions ask for, together. -/
structure Unites (user : UserId) (default : UInt64) (among : RoomSubscription → Prop)
    (view : RoomView) : Prop where
  state : ∀ eventType stateKey, view.requiredState.includes eventType stateKey = true ↔
    ∃ sub, among sub ∧ (sub.compile user).includes eventType stateKey = true
  limit : ∃ largest, RoomSubscription.LargestLimit among largest ∧
    view.timelineLimit = if largest = 0 then default else largest

theorem Kept.roomView_eq_none_iff (h : s.Kept user config) (room : RoomId) :
    s.roomView room = none ↔ ∀ sub, ¬ s.Covers room sub := by
  simp only [← h.mem_covering_iff]
  unfold roomView
  cases s.covering room with
  | nil => simp
  | cons first rest => exact iff_of_false (by simp) fun hnone => hnone first List.mem_cons_self

theorem Kept.unites_of_roomView (h : s.Kept user config) {room : RoomId} {view : RoomView}
    (hview : s.roomView room = some view) :
    Unites user config.defaultTimelineLimit (s.Covers room) view := by
  have hamong : s.Covers room = (· ∈ s.covering room) := by
    funext sub
    exact propext h.mem_covering_iff.symm
  unfold roomView at hview
  rw [hamong]
  cases hcover : s.covering room with
  | nil => simp [hcover] at hview
  | cons first rest =>
      rw [hcover] at hview
      cases hview
      rw [h.ofUser, h.default]
      exact
        { state := fun _ _ => RoomSubscription.includes_foldl_combine first rest
          limit := ⟨_, RoomSubscription.largestLimit_foldl first rest, rfl⟩ }

theorem default_le_of_validate {config : Config} (h : config.validate = .ok ()) :
    config.defaultTimelineLimit ≤ config.maxTimelineLimit := by
  have hfault : ¬ config.maxTimelineLimit < config.defaultTimelineLimit := by
    intro habove
    unfold Config.validate Config.fault? at h
    rw [if_pos habove] at h
    split at h
    · contradiction
    · next hnone =>
      split at hnone
      · contradiction
      · split at hnone <;> contradiction
  exact UInt64.not_lt.mp hfault

theorem Kept.limit_of_roomView (h : s.Kept user config) (valid : config.validate = .ok ())
    {room : RoomId} {view : RoomView} (hview : s.roomView room = some view) :
    view.timelineLimit ≤ config.maxTimelineLimit := by
  obtain ⟨limit, ⟨⟨sub, hcovers, hreached⟩, -⟩, hlimit⟩ := (h.unites_of_roomView hview).limit
  rw [hlimit]
  split
  · exact default_le_of_validate valid
  · rw [← hreached]
    exact h.limit_of_covers hcovers

/--
After any calls, a room has a view exactly when something covers it. The view unites
all that covers the room, and stays within the limit of a valid configuration.
-/
theorem room_view_unites_covering (user : UserId) (config : Config) (calls : List (Call α))
    (room : RoomId) :
    ((after user config calls).roomView room = none ↔
        ∀ sub, ¬ (after user config calls).Covers room sub) ∧
      (∀ view, (after user config calls).roomView room = some view →
        Unites user config.defaultTimelineLimit ((after user config calls).Covers room) view) ∧
      (config.validate = .ok () → ∀ view,
        (after user config calls).roomView room = some view →
          view.timelineLimit ≤ config.maxTimelineLimit) := by
  have h := kept_after user config calls
  exact ⟨h.roomView_eq_none_iff room, fun _ hview => h.unites_of_roomView hview,
    fun valid _ hview => h.limit_of_roomView valid hview⟩

end Session

end SlidingSync
