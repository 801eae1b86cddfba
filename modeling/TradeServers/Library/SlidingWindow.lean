import Mathlib.Algebra.Order.Group.Basic
import Mathlib.Data.List.Induction

/-!
# Sliding windows over timed entries

A queue of timed entries that, with every new entry, gives up entries from its front while they are
older than its width. For entries in the order of their times the queue holds exactly the entries of
the window (`window_eq_filter`). For entries in any order this can fail behind the front, but the
front still lies in the window (`le_of_head_window`), and a narrower queue is a suffix of a wider
one (`window_suffix_window`).
-/

set_option autoImplicit false
set_option relaxedAutoImplicit false

namespace TradeServers.SlidingWindow

/-! ### Leaving out a first part of a list -/

section Drop

variable {α : Type*} {loose strict drops : α → Bool}

/-- A list from which one part is left out ends with the list from which more is left out. -/
theorem dropWhile_suffix_dropWhile (himp : ∀ a, loose a → strict a) {shorter longer : List α}
    (hsuffix : shorter <:+ longer) : shorter.dropWhile strict <:+ longer.dropWhile loose := by
  induction longer generalizing shorter with
  | nil =>
    rw [List.suffix_nil.mp hsuffix]
    exact List.suffix_rfl
  | cons a longer ih =>
    rcases List.suffix_cons_iff.mp hsuffix with rfl | hinside
    · by_cases hloose : loose a
      · rw [List.dropWhile_cons_of_pos hloose, List.dropWhile_cons_of_pos (himp a hloose)]
        exact ih List.suffix_rfl
      · rw [List.dropWhile_cons_of_neg hloose]
        exact List.dropWhile_suffix strict
    · by_cases hloose : loose a
      · rw [List.dropWhile_cons_of_pos hloose]
        exact ih hinside
      · rw [List.dropWhile_cons_of_neg hloose]
        exact (List.dropWhile_suffix strict).trans hsuffix

/-- When no entry behind one that stays has to go, exactly the entries that have to go are left
out. -/
theorem dropWhile_eq_filter {entries : List α}
    (hordered : entries.Pairwise fun earlier later ↦ drops later → drops earlier) :
    entries.dropWhile drops = entries.filter fun entry ↦ !drops entry := by
  induction entries with
  | nil => rfl
  | cons entry entries ih =>
    obtain ⟨hfirst, hrest⟩ := List.pairwise_cons.mp hordered
    by_cases hdrops : drops entry
    · rw [List.dropWhile_cons_of_pos hdrops, List.filter_cons_of_neg (by simp [hdrops]), ih hrest]
    · rw [List.dropWhile_cons_of_neg hdrops, eq_comm, List.filter_eq_self]
      intro other hother
      rcases List.mem_cons.mp hother with rfl | hlater
      · simpa using hdrops
      · simpa using fun hgoes ↦ hdrops (hfirst other hlater hgoes)

end Drop

/-! ### Windows -/

variable {T V : Type*} [AddCommGroup T] [LinearOrder T]

/-- The entry is older than the width of the window that ends at `now`. -/
def expired (width now : T) (entry : T × V) : Bool := decide (width < now - entry.1)

theorem expired_iff {width now : T} {old : T × V} : expired width now old ↔ width < now - old.1 :=
  decide_eq_true_iff

/-- A new entry: expired entries leave the front of the queue. -/
def slide (width : T) (queue : List (T × V)) (entry : T × V) : List (T × V) :=
  queue.dropWhile (expired width entry.1) ++ [entry]

/-- The queue after a history of entries. -/
def window (width : T) (entries : List (T × V)) : List (T × V) :=
  entries.foldl (slide width) []

variable {width narrow wide : T} {entries : List (T × V)} {entry : T × V}

theorem window_concat (width : T) (entries : List (T × V)) (entry : T × V) :
    window width (entries ++ [entry]) = slide width (window width entries) entry := by
  unfold window
  rw [List.foldl_append, List.foldl_cons, List.foldl_nil]

/-- A narrower queue is a suffix of a wider one, whatever the order of the entries is. -/
theorem window_suffix_window (hwidth : narrow ≤ wide) (entries : List (T × V)) :
    window narrow entries <:+ window wide entries := by
  induction entries using List.reverseRecOn with
  | nil => exact List.suffix_rfl
  | append_singleton entries entry ih =>
    rw [window_concat, window_concat, slide, slide]
    have hexpired : ∀ old : T × V, expired wide entry.1 old → expired narrow entry.1 old := by
      intro old hold
      exact expired_iff.mpr (hwidth.trans_lt (expired_iff.mp hold))
    obtain ⟨more, hmore⟩ := dropWhile_suffix_dropWhile hexpired ih
    refine ⟨more, ?_⟩
    rw [← List.append_assoc, hmore]

theorem window_concat_ne_nil (width : T) (entries : List (T × V)) (entry : T × V) :
    window width (entries ++ [entry]) ≠ [] := by
  rw [window_concat, slide]
  exact List.append_ne_nil_of_right_ne_nil _ (List.cons_ne_nil _ _)

theorem getLast?_window_concat (width : T) (entries : List (T × V)) (entry : T × V) :
    (window width (entries ++ [entry])).getLast? = some entry := by
  rw [window_concat, slide, List.getLast?_concat]

variable [IsOrderedAddMonoid T]

/-- What has expired has expired at every later time. -/
theorem expired_of_le {now later : T} {old : T × V} (hlater : now ≤ later)
    (hold : expired width now old) : expired width later old :=
  expired_iff.mpr ((expired_iff.mp hold).trans_le (sub_le_sub_right hlater _))

theorem not_expired (width now : T) (old : T × V) :
    (!expired width now old) = decide (now - width ≤ old.1) := by
  rw [expired, ← decide_not, decide_eq_decide, not_lt]
  exact sub_le_comm

/-- The front of the queue is not older than its width. -/
theorem le_of_head_window (hwidth : 0 ≤ width) {front : T × V}
    (hfront : (window width (entries ++ [entry])).head? = some front) :
    entry.1 - width ≤ front.1 := by
  rw [window_concat, slide] at hfront
  cases hstays : (window width entries).dropWhile (expired width entry.1) with
  | nil =>
    rw [hstays] at hfront
    obtain rfl := Option.some.inj hfront
    exact sub_le_self _ hwidth
  | cons oldest rest =>
    rw [hstays] at hfront
    obtain rfl := Option.some.inj hfront
    have hhead := List.head?_dropWhile_not (expired width entry.1) (window width entries)
    rw [hstays] at hhead
    have hstayed : (!expired width entry.1 oldest) = true := by
      rw [Bool.not_eq_true']
      exact hhead
    rw [not_expired] at hstayed
    exact of_decide_eq_true hstayed

/-- What has not expired at a later time is in the window: for a history in the order of its times,
nothing in the window stays behind an entry that has to go. -/
theorem dropWhile_window (now : T) (hordered : entries.Pairwise fun old new ↦ old.1 ≤ new.1)
    (hnow : ∀ old ∈ entries, old.1 ≤ now) :
    (window width entries).dropWhile (expired width now) =
      entries.filter fun old ↦ !expired width now old := by
  induction entries using List.reverseRecOn generalizing now with
  | nil => rfl
  | append_singleton entries last ih =>
    obtain ⟨hearlier, -, hlast⟩ := List.pairwise_append.mp hordered
    have hlate : last.1 ≤ now := hnow last (by simp)
    have hwindow := ih last.1 hearlier fun old hold ↦ hlast old hold last (by simp)
    have hsublist : (entries.filter fun old ↦ !expired width last.1 old) ++ [last] |>.Sublist
        (entries ++ [last]) := List.filter_sublist.append_right _
    have hgoes : ((entries.filter fun old ↦ !expired width last.1 old) ++ [last]).Pairwise
        fun earlier later ↦ expired width now later → expired width now earlier := by
      refine (hordered.sublist hsublist).imp fun {old new} htimes hnew ↦ ?_
      exact expired_iff.mpr ((expired_iff.mp hnew).trans_le (sub_le_sub_left htimes now))
    rw [window_concat, slide, hwindow, dropWhile_eq_filter hgoes, List.filter_append,
      List.filter_append, List.filter_filter]
    congr 1
    apply List.filter_congr
    intro old _
    cases hold : expired width last.1 old with
    | false => rw [Bool.not_false, Bool.and_true]
    | true => rw [expired_of_le hlate hold, Bool.not_true, Bool.false_and]

/-- For a history in the order of its times, the queue holds exactly the entries of the window, in
their order. -/
theorem window_eq_filter (hwidth : 0 ≤ width)
    (hordered : (entries ++ [entry]).Pairwise fun old new ↦ old.1 ≤ new.1) :
    window width (entries ++ [entry]) =
      (entries ++ [entry]).filter fun old ↦ decide (entry.1 - width ≤ old.1) := by
  obtain ⟨hearlier, -, hlast⟩ := List.pairwise_append.mp hordered
  rw [window_concat, slide,
    dropWhile_window entry.1 hearlier fun old hold ↦ hlast old hold entry (by simp),
    List.filter_append]
  have hentry : [entry].filter (fun old ↦ decide (entry.1 - width ≤ old.1)) = [entry] :=
    List.filter_cons_of_pos (decide_eq_true (sub_le_self _ hwidth))
  simp only [not_expired, hentry]

end TradeServers.SlidingWindow
