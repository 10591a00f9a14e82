import SlidingSync.Proofs.Client.Rows
import SlidingSync.Proofs.Wire.Codecs
import SlidingSync.Wire.Request

/-! # Sets of windows

Windows are checked in the order of their starts, each against the next one only. For upright
windows in that order this is enough: a window that does not reach into its follower does not reach
into any later one. So windows are accepted exactly when none is inverted and no index lies in two
of them, and the ranges are then the one arrangement of the windows in which each ends before the
next one starts.
-/

namespace SlidingSync

namespace Ranges

/-- None is inverted, and no index lies in two of them. -/
structure WellFormed (windows : List Window) : Prop where
  upright : ∀ w ∈ windows, w.first ≤ w.last
  disjoint : windows.Pairwise fun a b =>
    ∀ index, ¬(a.contains index = true ∧ b.contains index = true)

/-- Every window ends before each of the later ones starts. -/
def Ascending (windows : List Window) : Prop :=
  windows.Pairwise fun a b => a.last < b.first

/-! ## Ranges are well formed -/

theorem ascending (r : Ranges) : Ascending r.windows :=
  r.pairwise_windows.imp UInt64.lt_iff_toNat_lt.mpr

theorem disjoint_of_ascending {windows : List Window} (h : Ascending windows) :
    windows.Pairwise fun a b => ∀ index, ¬(a.contains index = true ∧ b.contains index = true) := by
  refine h.imp ?_
  rintro a b hgap index ⟨ha, hb⟩
  rw [Window.contains_iff] at ha hb
  rw [UInt64.lt_iff_toNat_lt] at hgap
  omega

theorem wellFormed (r : Ranges) : WellFormed r.windows where
  upright _ hw := UInt64.le_iff_toNat_le.mpr (first_le_last hw)
  disjoint := disjoint_of_ascending r.ascending

/-- An index lies in one window of the ranges or in none. -/
theorem countP_contains {windows : List Window} (h : Ascending windows) (index : Nat) :
    windows.countP (·.contains index) = if windows.any (·.contains index) then 1 else 0 := by
  have hdisjoint := disjoint_of_ascending h
  induction windows with
  | nil => rfl
  | cons w rest ih =>
      obtain ⟨hw, hrest⟩ := List.pairwise_cons.mp hdisjoint
      rw [List.countP_cons, ih (List.pairwise_cons.mp h).2 hrest, List.any_cons]
      cases hcontains : w.contains index with
      | false => simp
      | true =>
          have hothers : rest.any (·.contains index) = false := by
            refine List.any_eq_false.mpr fun v hv hin => hw v hv index ⟨hcontains, hin⟩
          simp [hothers]

/-! ## Well-formed windows are accepted -/

theorem WellFormed.of_perm {windows windows' : List Window} (h : WellFormed windows)
    (hperm : windows'.Perm windows) : WellFormed windows' where
  upright w hw := h.upright w (hperm.subset hw)
  disjoint := (hperm.pairwise_iff fun hab index hboth => hab index hboth.symm).mpr h.disjoint

/-- Disjoint windows in the order of their starts do not reach into later ones. -/
theorem WellFormed.ascending {windows : List Window} (h : WellFormed windows)
    (hstarts : windows.Pairwise fun a b => a.first ≤ b.first) : Ascending windows := by
  refine (hstarts.and h.disjoint).imp_of_mem ?_
  rintro a b - hb ⟨hle, hapart⟩
  have hbup := UInt64.le_iff_toNat_le.mp (h.upright b hb)
  rw [UInt64.le_iff_toNat_le] at hle
  rw [UInt64.lt_iff_toNat_lt]
  -- Otherwise the later window starts in the earlier one.
  by_contra hreach
  refine hapart b.first.toNat ⟨Window.contains_iff.mpr ?_, Window.contains_iff.mpr ?_⟩ <;> omega

theorem firstInverted_eq_none {windows : List Window} (h : ∀ w ∈ windows, w.first ≤ w.last) :
    firstInverted windows = none := by
  refine List.find?_eq_none.mpr fun w hw => ?_
  simpa using h w hw

theorem firstOverlap_eq_none {windows : List Window} (h : Ascending windows) :
    firstOverlap windows = none := by
  induction windows with
  | nil => rfl
  | cons a rest ih =>
      cases rest with
      | nil => rfl
      | cons b rest =>
          obtain ⟨ha, hrest⟩ := List.pairwise_cons.mp h
          have hgap : ¬b.first ≤ a.last := UInt64.not_le.mpr (ha b List.mem_cons_self)
          rw [firstOverlap, if_neg hgap]
          exact ih hrest

theorem sortWindows_perm (windows : List Window) : (sortWindows windows).Perm windows :=
  List.mergeSort_perm windows _

theorem pairwise_sortWindows (windows : List Window) :
    (sortWindows windows).Pairwise fun a b => a.first ≤ b.first := by
  have hsorted := @List.pairwise_mergeSort Window (fun a b => decide (a.first ≤ b.first))
    (by simpa using fun a b c => UInt64.le_trans) (by simpa using fun a b => UInt64.le_total _ _)
    windows
  exact hsorted.imp of_decide_eq_true

/-- Windows have one ascending arrangement only. -/
theorem Ascending.unique {order order' : List Window} (h : Ascending order) (h' : Ascending order')
    (hup : ∀ w ∈ order, w.first ≤ w.last) (hperm : order.Perm order') : order = order' := by
  refine hperm.eq_of_pairwise ?_ h h'
  intro a b ha hb hab hba
  have haup := UInt64.le_iff_toNat_le.mp (hup a ha)
  have hbup := UInt64.le_iff_toNat_le.mp (hup b (hperm.mem_iff.mpr hb))
  rw [UInt64.lt_iff_toNat_lt] at hab hba
  omega

theorem ofWindows_of_perm {windows : List Window} {r : Ranges} (h : r.windows.Perm windows) :
    ofWindows windows = .ok r := by
  have hsorted := sortWindows_perm windows
  have hwell := r.wellFormed.of_perm (hsorted.trans h.symm)
  have hascending := hwell.ascending (pairwise_sortWindows windows)
  have heq : sortWindows windows = r.windows :=
    hascending.unique r.ascending hwell.upright (hsorted.trans h.symm)
  unfold ofWindows
  split
  · next w hup =>
    rw [firstInverted_eq_none hwell.upright] at hup
    contradiction
  · split
    · next a b hap =>
      rw [firstOverlap_eq_none hascending] at hap
      contradiction
    · cases r
      simp_all

/-- The ranges of windows have these windows and no others. -/
theorem ofWindows_eq_ok_iff {windows : List Window} {r : Ranges} :
    ofWindows windows = .ok r ↔ r.windows.Perm windows := by
  constructor
  · intro h
    unfold ofWindows at h
    split at h
    · contradiction
    · split at h
      · contradiction
      · obtain rfl := Except.ok.inj h
        exact sortWindows_perm windows
  · exact ofWindows_of_perm

theorem exists_ofWindows_iff {windows : List Window} :
    (∃ r, ofWindows windows = .ok r) ↔ WellFormed windows := by
  constructor
  · rintro ⟨r, h⟩
    exact r.wellFormed.of_perm (ofWindows_eq_ok_iff.mp h).symm
  · intro h
    have hsorted := sortWindows_perm windows
    have hwell := h.of_perm hsorted
    have hascending := hwell.ascending (pairwise_sortWindows windows)
    exact ⟨⟨sortWindows windows, firstInverted_eq_none hwell.upright,
      firstOverlap_eq_none hascending⟩, ofWindows_of_perm hsorted⟩

end Ranges

/-! ## Windows on the wire -/

theorem Window.codec_faithful : Window.codec.Faithful :=
  Codec.natural_faithful.pair fun _ => rfl

namespace Ranges

theorem decode_eq (j : Json) : Ranges.codec.decode j =
    ((Codec.list Window.codec).decode j).bind fun windows =>
      (ofWindows windows).mapError .windows :=
  rfl

theorem decode_eq_ok_iff {j : Json} {r : Ranges} :
    Ranges.codec.decode j = .ok r ↔
      ∃ windows, (Codec.list Window.codec).decode j = .ok windows ∧ ofWindows windows = .ok r := by
  rw [decode_eq]
  cases (Codec.list Window.codec).decode j with
  | error fault => simp [Except.bind]
  | ok windows => cases h : ofWindows windows <;> simp [Except.bind, Except.mapError, h]

/--
Windows make up ranges exactly when none is inverted and no index lies in two of
them. The ranges are then the one arrangement of the windows in which each ends
before the next one starts, whatever order the windows were given in. Windows in a
document are taken or refused by the same rule. So in every value of ranges, and
with it in every list of a request, an index lies in one window or in none, and in
one exactly when it is `inside`.
-/
theorem accepts_exactly_window_sets (windows : List Window) :
    ((∃ r, ofWindows windows = .ok r) ↔ WellFormed windows) ∧
    (∀ r, ofWindows windows = .ok r →
      ∀ order, order = r.windows ↔ order.Perm windows ∧ Ascending order) ∧
    (∀ given, given.Perm windows → ∀ r, ofWindows given = .ok r ↔ ofWindows windows = .ok r) ∧
    Ranges.codec.decode ((Codec.list Window.codec).encode windows) =
      (ofWindows windows).mapError .windows ∧
    (∀ j r, Ranges.codec.decode j = .ok r ↔
      ∃ given, (Codec.list Window.codec).decode j = .ok given ∧ ofWindows given = .ok r) ∧
    ∀ r : Ranges, Ascending r.windows ∧
      ∀ index, r.windows.countP (·.contains index) = if r.inside index then 1 else 0 := by
  refine ⟨exists_ofWindows_iff, ?_, ?_, ?_, fun _ _ => decode_eq_ok_iff,
    fun r => ⟨r.ascending, countP_contains r.ascending⟩⟩
  · intro r h order
    have hperm := ofWindows_eq_ok_iff.mp h
    constructor
    · rintro rfl
      exact ⟨hperm, r.ascending⟩
    · rintro ⟨horder, hascending⟩
      have hwell := r.wellFormed.of_perm (horder.trans hperm.symm)
      exact hascending.unique r.ascending hwell.upright (horder.trans hperm.symm)
  · intro given hgiven r
    rw [ofWindows_eq_ok_iff, ofWindows_eq_ok_iff]
    exact ⟨fun h => h.trans hgiven, fun h => h.trans hgiven.symm⟩
  · rw [decode_eq, Window.codec_faithful.list.decode_written]
    rfl

/-- Windows that touch without a common index, given last first, up to the greatest index. -/
theorem touching_windows_accepted :
    [⟨5, 18446744073709551615⟩, ⟨0, 4⟩].Perm [⟨0, 4⟩, (⟨5, 18446744073709551615⟩ : Window)] ∧
    ∃ r, ofWindows [⟨5, 18446744073709551615⟩, ⟨0, 4⟩] = .ok r ∧
      ofWindows [⟨0, 4⟩, ⟨5, 18446744073709551615⟩] = .ok r ∧
      r.windows = [⟨0, 4⟩, ⟨5, 18446744073709551615⟩] := by
  have hswap : [⟨5, 18446744073709551615⟩, ⟨0, 4⟩].Perm
      [⟨0, 4⟩, (⟨5, 18446744073709551615⟩ : Window)] := List.Perm.swap _ _ _
  have hascending : Ascending [⟨0, 4⟩, ⟨5, 18446744073709551615⟩] := by
    unfold Ascending
    decide
  obtain ⟨haccepts, harranged, hgiven, -⟩ :=
    accepts_exactly_window_sets [⟨0, 4⟩, ⟨5, 18446744073709551615⟩]
  obtain ⟨r, hr⟩ := haccepts.mpr ⟨by decide, disjoint_of_ascending hascending⟩
  exact ⟨hswap, r, (hgiven _ hswap r).mpr hr, hr,
    ((harranged r hr _).mpr ⟨List.Perm.refl _, hascending⟩).symm⟩

end Ranges

end SlidingSync
