/-
AircraftApi/Keyset.lean

Keyset scans: reading a table page by page, each page from the key the one
before it ended on.  Rows stand here as their keys.

A page covers a table from a key when it lists the keys of the table beyond that
one, in order, up to the key it hands on, or to the end.  The table may change
between the pages of a scan; what is asked of it is asked of each page by itself.
So what a scan lists increases throughout (`Scan.increasing`), and a key that is
in the table at each of its pages is listed (`Scan.lists`).

    Covers table after page next   one page
    Scan after pages ended         the pages of a scan, and whether the last one
                                   handed on no key
-/
import Mathlib.Data.List.Sort
import Mathlib.Order.Basic

namespace Keyset

variable {κ : Type*} [LinearOrder κ]

/-- The key is beyond `after`, if there is such a key. -/
def Beyond (after : Option κ) (k : κ) : Prop := ∀ k' ∈ after, k' < k

instance (after : Option κ) : DecidablePred (Beyond after) := fun k =>
  inferInstanceAs (Decidable (∀ k' ∈ after, k' < k))

@[simp] theorem beyond_none (k : κ) : Beyond none k := by
  simp [Beyond]

@[simp] theorem beyond_some {k' k : κ} : Beyond (some k') k ↔ k' < k := by
  simp [Beyond]

/-- The page lists, in order, the keys of the table beyond `after`, up to `next`. -/
structure Covers (table : List κ) (after : Option κ) (page : List κ) (next : Option κ) :
    Prop where
  increasing : page.Pairwise (· < ·)
  sound : ∀ k ∈ page, k ∈ table ∧ Beyond after k
  complete : ∀ k ∈ table, Beyond after k → (∀ last ∈ next, k ≤ last) → k ∈ page
  next_le : ∀ last ∈ next, ∀ k ∈ page, k ≤ last
  next_mem : ∀ last ∈ next, last ∈ page
  more : ∀ last ∈ next, ∃ k ∈ table, last < k

/-! ### One page -/

/-- Rows of distinct keys, sorted by key, increase. -/
theorem increasing_mergeSort {α : Type*} {key : α → κ} {rows : List α}
    (h : (rows.map key).Nodup) :
    ((rows.mergeSort fun a b => key a ≤ key b).map key).Pairwise (· < ·) := by
  have hsorted : (rows.mergeSort fun a b => key a ≤ key b).Pairwise
      fun a b => key a ≤ key b := by
    refine (List.pairwise_mergeSort ?_ ?_ rows).imp fun h => of_decide_eq_true h
    · intro a b c hab hbc
      exact decide_eq_true ((of_decide_eq_true hab).trans (of_decide_eq_true hbc))
    · intro a b
      simpa using le_total (key a) (key b)
  have hnodup : ((rows.mergeSort fun a b => key a ≤ key b).map key).Nodup :=
    ((List.mergeSort_perm rows _).map key).nodup_iff.mpr h
  have hle := List.pairwise_map.mpr hsorted
  exact (List.pairwise_and_iff.mpr ⟨hle, hnodup⟩).imp fun ⟨hle, hne⟩ => lt_of_le_of_ne hle hne

theorem le_getLast {page : List κ} (h : page.Pairwise (· < ·)) {last : κ}
    (hlast : page.getLast? = some last) {k : κ} (hk : k ∈ page) : k ≤ last := by
  obtain ⟨front, rfl⟩ := List.getLast?_eq_some_iff.mp hlast
  rcases List.mem_append.mp hk with hk | hk
  · exact ((List.pairwise_append.mp h).2.2 k hk last (by simp)).le
  · rw [List.mem_singleton.mp hk]

/-- The first keys of the table beyond a key cover it, up to the last of them or to the
end. -/
theorem covers_take {table sorted : List κ} {after : Option κ} {n : ℕ}
    (hsorted : sorted.Pairwise (· < ·))
    (hmem : ∀ k, k ∈ sorted ↔ k ∈ table ∧ Beyond after k) (hn : 0 < n) :
    Covers table after (sorted.take n)
      (if n < sorted.length then (sorted.take n).getLast? else none) := by
  have htake : (sorted.take n).Pairwise (· < ·) := hsorted.sublist (sorted.take_sublist n)
  have hsound : ∀ k ∈ sorted.take n, k ∈ table ∧ Beyond after k :=
    fun k hk => (hmem k).mp (List.mem_of_mem_take hk)
  by_cases hlen : n < sorted.length
  · have hne : sorted.take n ≠ [] := by
      rw [← List.length_pos_iff, List.length_take]
      omega
    have hlast := List.getLast?_eq_some_getLast hne
    have hin : (sorted.take n).getLast hne ∈ sorted.take n := List.getLast_mem hne
    -- the list is sorted, so what is taken stands before what is left
    have hcut : ∀ k ∈ sorted.take n, ∀ k' ∈ sorted.drop n, k < k' := by
      rw [← sorted.take_append_drop n] at hsorted
      exact (List.pairwise_append.mp hsorted).2.2
    -- one row more was read than is given
    have hmore : sorted[n] ∈ sorted.drop n := by
      rw [List.drop_eq_getElem_cons hlen]
      exact List.mem_cons_self
    rw [if_pos hlen, hlast]
    refine ⟨htake, hsound, ?_, ?_, ?_, ?_⟩
    · intro k hk hbeyond hle
      have hk : k ∈ sorted.take n ++ sorted.drop n := by
        rw [List.take_append_drop]
        exact (hmem k).mpr ⟨hk, hbeyond⟩
      rcases List.mem_append.mp hk with hk | hk
      · exact hk
      · exact absurd (hcut _ hin k hk) (not_lt.mpr (hle _ rfl))
    · rintro _ ⟨⟩ k hk
      exact le_getLast htake hlast hk
    · rintro _ ⟨⟩
      exact hin
    · rintro _ ⟨⟩
      exact ⟨sorted[n], ((hmem _).mp (List.getElem_mem hlen)).1, hcut _ hin _ hmore⟩
  · rw [if_neg hlen]
    refine ⟨htake, hsound, ?_, by simp, by simp, by simp⟩
    intro k hk hbeyond _
    rw [List.take_of_length_le (not_lt.mp hlen)]
    exact (hmem k).mpr ⟨hk, hbeyond⟩

namespace Covers

variable {table page : List κ} {after : Option κ} {last : κ}

/-- The key handed on is beyond the one the page was read from. -/
theorem beyond_next (h : Covers table after page (some last)) : Beyond after last :=
  (h.sound last (h.next_mem last rfl)).2

theorem beyond_of_next (h : Covers table after page (some last)) {k : κ} (hk : last < k) :
    Beyond after k :=
  fun k' hk' => (h.beyond_next k' hk').trans hk

/-- The page lists as many keys as the table has beyond `after` and up to `next`. -/
theorem length_eq {next : Option κ} (h : Covers table after page next) (hnodup : table.Nodup) :
    page.length = (table.filter fun k => Beyond after k ∧ ∀ last ∈ next, k ≤ last).length := by
  refine ((List.perm_ext_iff_of_nodup ?_ (hnodup.filter _)).mpr ?_).length_eq
  · exact h.increasing.imp ne_of_lt
  · intro k
    rw [List.mem_filter, decide_eq_true_eq]
    constructor
    · intro hk
      exact ⟨(h.sound k hk).1, (h.sound k hk).2, fun last hlast => h.next_le last hlast k hk⟩
    · rintro ⟨hk, hbeyond, hle⟩
      exact h.complete k hk hbeyond hle

/-- A page that hands on a key leaves fewer keys of its table beyond it. -/
theorem length_beyond_lt (h : Covers table after page (some last)) :
    (table.filter (Beyond (some last) ·)).length < (table.filter (Beyond after ·)).length := by
  have hsub : (table.filter (Beyond (some last) ·)).Sublist
      (table.filter (Beyond after ·)) := by
    apply List.monotone_filter_right
    intro k hk
    exact decide_eq_true (h.beyond_of_next (beyond_some.mp (of_decide_eq_true hk)))
  have hin : last ∈ table.filter (Beyond after ·) :=
    List.mem_filter.mpr ⟨(h.sound last (h.next_mem last rfl)).1, decide_eq_true h.beyond_next⟩
  have hout : last ∉ table.filter (Beyond (some last) ·) := by
    simp
  refine lt_of_le_of_ne hsub.length_le fun heq => hout ?_
  rwa [hsub.eq_of_length heq]

end Covers

/-! ### Where a page ends -/

/-- How many keys of the table are beyond `after` and up to `k`. -/
def rank (table : List κ) (after : Option κ) (k : κ) : ℕ :=
  (table.filter fun k' => Beyond after k' ∧ k' ≤ k).length

/-- The key is the `n`th beyond `after`, and not the last of the table. -/
structure EndsAt (table : List κ) (after : Option κ) (n : ℕ) (k : κ) : Prop where
  mem : k ∈ table
  beyond : Beyond after k
  rank_eq : rank table after k = n
  more : ∃ k' ∈ table, k < k'

section

variable {table page : List κ} {after next : Option κ} {n : ℕ} {k : κ}

theorem rank_lt {k' : κ} (hk' : k' ∈ table) (hbeyond : Beyond after k') (hlt : k < k') :
    rank table after k < rank table after k' := by
  have hsub : (table.filter fun x => Beyond after x ∧ x ≤ k).Sublist
      (table.filter fun x => Beyond after x ∧ x ≤ k') := by
    apply List.monotone_filter_right
    intro x hx
    obtain ⟨hx, hle⟩ := of_decide_eq_true hx
    exact decide_eq_true ⟨hx, hle.trans hlt.le⟩
  have hin : k' ∈ table.filter fun x => Beyond after x ∧ x ≤ k' :=
    List.mem_filter.mpr ⟨hk', decide_eq_true ⟨hbeyond, le_rfl⟩⟩
  have hout : k' ∉ table.filter fun x => Beyond after x ∧ x ≤ k := by
    intro h
    exact absurd (of_decide_eq_true (List.mem_filter.mp h).2).2 (not_le.mpr hlt)
  refine lt_of_le_of_ne hsub.length_le fun heq => hout ?_
  rwa [hsub.eq_of_length heq]

theorem Covers.length_eq_rank (h : Covers table after page (some k)) (hnodup : table.Nodup) :
    page.length = rank table after k := by
  rw [h.length_eq hnodup, rank]
  simp

/-- A page of at most `n` keys, full when it hands on one, ends where the table's `n`th key
is, if there are more. -/
theorem Covers.next_eq_some_iff (h : Covers table after page next) (hnodup : table.Nodup)
    (hle : page.length ≤ n) (hfull : next.isSome = true → page.length = n) :
    next = some k ↔ EndsAt table after n k := by
  constructor
  · rintro rfl
    obtain ⟨hk, hbeyond⟩ := h.sound k (h.next_mem k rfl)
    exact ⟨hk, hbeyond, (h.length_eq_rank hnodup).symm.trans (hfull rfl), h.more k rfl⟩
  · intro hends
    rcases next with - | last
    · obtain ⟨k', hk', hlt⟩ := hends.more
      have hbeyond' : Beyond after k' := fun x hx => (hends.beyond x hx).trans hlt
      have hrank : rank table after k' ≤ page.length := by
        rw [h.length_eq hnodup, rank]
        apply List.Sublist.length_le
        apply List.monotone_filter_right
        intro x hx
        exact decide_eq_true ⟨(of_decide_eq_true hx).1, by simp⟩
      have hstep := rank_lt hk' hbeyond' hlt
      rw [hends.rank_eq] at hstep
      exact absurd (hstep.trans_le (hrank.trans hle)) (lt_irrefl n)
    · obtain ⟨hlast, hbeyond⟩ := h.sound last (h.next_mem last rfl)
      have hrank : rank table after last = rank table after k := by
        rw [hends.rank_eq, ← h.length_eq_rank hnodup, hfull rfl]
      rcases lt_trichotomy last k with hlt | rfl | hlt
      · exact absurd hrank (rank_lt hends.mem hends.beyond hlt).ne
      · rfl
      · exact absurd hrank (rank_lt hlast hbeyond hlt).ne'

end

/-! ### The pages of a scan -/

/-- The pages of a scan, each with the table it was read from. -/
inductive Scan : Option κ → List (List κ × List κ) → Bool → Prop
  | stop {after} : Scan after [] false
  | last {after table page} : Covers table after page none → Scan after [(table, page)] true
  | more {after table page last pages ended} : Covers table after page (some last) →
      Scan (some last) pages ended → Scan after ((table, page) :: pages) ended

namespace Scan

variable {after : Option κ} {pages : List (List κ × List κ)} {ended : Bool}

/-- What a scan lists lies beyond its key. -/
theorem beyond (h : Scan after pages ended) : ∀ k ∈ pages.flatMap Prod.snd, Beyond after k := by
  induction h with
  | stop => simp
  | last hcovers =>
      intro k hk
      exact (hcovers.sound k (by simpa using hk)).2
  | more hcovers _ ih =>
      intro k hk
      rcases List.mem_append.mp (List.flatMap_cons ▸ hk) with hk | hk
      · exact (hcovers.sound k hk).2
      · exact hcovers.beyond_of_next (beyond_some.mp (ih k hk))

/-- What a scan lists increases throughout. -/
theorem increasing (h : Scan after pages ended) :
    (pages.flatMap Prod.snd).Pairwise (· < ·) := by
  induction h with
  | stop => exact List.Pairwise.nil
  | last hcovers => simpa using hcovers.increasing
  | more hcovers hrest ih =>
      rw [List.flatMap_cons, List.pairwise_append]
      refine ⟨hcovers.increasing, ih, ?_⟩
      intro k hk k' hk'
      exact (hcovers.next_le _ rfl k hk).trans_lt (beyond_some.mp (hrest.beyond k' hk'))

/-- A scan that ended lists what was beyond its key all along. -/
theorem lists (h : Scan after pages true) {k : κ} (hthere : ∀ page ∈ pages, k ∈ page.1)
    (hbeyond : Beyond after k) : k ∈ pages.flatMap Prod.snd := by
  generalize hended : true = ended at h
  induction h with
  | stop => cases hended
  | @last after table page hcovers =>
      have hk : k ∈ table := hthere (table, page) (List.mem_singleton_self _)
      simpa using hcovers.complete k hk hbeyond (by simp)
  | @more after table page last pages ended hcovers _ ih =>
      obtain ⟨hk, hpages⟩ := List.forall_mem_cons.mp hthere
      rw [List.flatMap_cons, List.mem_append]
      rcases le_or_gt k last with hle | hlt
      · refine Or.inl (hcovers.complete k hk hbeyond ?_)
        rintro _ ⟨⟩
        exact hle
      · exact Or.inr (ih hpages (beyond_some.mpr hlt) hended)

/-- A scan of an unchanging table that has not ended has read fewer pages than the table
has keys beyond where it began. -/
theorem length_le (h : Scan after pages false) {table : List κ}
    (hsame : ∀ page ∈ pages, page.1 = table) :
    pages.length ≤ (table.filter (Beyond after ·)).length := by
  generalize hended : false = ended at h
  induction h with
  | stop => simp
  | last => cases hended
  | more hcovers _ ih =>
      obtain ⟨hpage, hpages⟩ := List.forall_mem_cons.mp hsame
      obtain rfl : _ = table := hpage
      exact (Nat.succ_le_succ (ih hpages hended)).trans hcovers.length_beyond_lt

end Scan

end Keyset
