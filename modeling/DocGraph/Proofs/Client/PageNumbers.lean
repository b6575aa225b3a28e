import DocGraph.Proofs.Client.Pages
/-!
# The numbers of a page are exact

Which rows a page begins with and ends with, which pages are beside it and how many rows there are
in all is worked out in 64 bits.  Every difference is exact, and products and sums that do not fit
stay at the largest number where this is asked for.  Two sums are not asked to, and break the page
off when they do not fit: the number of the page after the largest one, and the number of rows when
no one gives it and the last row lies behind the largest number.
-/

namespace DocGraph

namespace Pagination

/-- A window that begins or ends behind the largest number has no exact end, unless it is empty. -/
theorem toNat_offset_add_lt_iff (params : Pagination) (n : Nat) :
    params.offset.toNat + n < UInt64.size ↔
      n = 0 ∨ (params.number.toNat - 1) * params.perPage.toNat + n < UInt64.size := by
  have hsize : 0 < UInt64.size := by decide
  rw [toNat_offset_eq_min]
  omega

end Pagination

namespace Page

variable {params : Pagination} {count : UInt64}

/-- Rows are left behind the largest page only if its pages hold one row each, or none. -/
theorem largest_followed_iff (hnumber : params.number.toNat = UInt64.size - 1) {n : Nat} :
    params.offset.toNat + n < count.toNat ↔
      (params.perPage = 0 ∧ n < count.toNat) ∨
        (params.perPage = 1 ∧ n = 0 ∧ count.toNat = UInt64.size - 1) := by
  have hcount := count.toNat_lt_size
  have hsize : 2 < UInt64.size := by decide
  have hzero : params.perPage = 0 ↔ params.perPage.toNat = 0 := UInt64.toNat_inj.symm
  have hone : params.perPage = 1 ↔ params.perPage.toNat = 1 := UInt64.toNat_inj.symm
  rw [Pagination.toNat_offset_eq_min, hnumber, hzero, hone]
  obtain hperPage | hperPage | hperPage :
      params.perPage.toNat = 0 ∨ params.perPage.toNat = 1 ∨ 2 ≤ params.perPage.toNat := by omega
  · rw [hperPage]
    omega
  · rw [hperPage]
    omega
  · have hproduct := Nat.mul_le_mul_left (UInt64.size - 1 - 1) hperPage
    omega

end Page

namespace Collection

variable {α : Type} {items : List α} {params : Pagination}

/-- Without a number of all rows the page ends with the last one. -/
theorem pageOf_none_eq_none_iff (hitems : items.length < UInt64.size) :
    pageOf items params none = none ↔
      UInt64.size ≤ params.offset.toNat + items.length := by
  have hlength : (UInt64.ofNat items.length).toNat = items.length :=
    UInt64.toNat_ofNat_of_lt' hitems
  unfold pageOf
  cases hcount : Pagination.checkedAdd params.offset (.ofNat items.length) with
  | none =>
      rw [Pagination.checkedAdd_eq_none_iff, hlength] at hcount
      exact iff_of_true rfl hcount
  | some count =>
      have hsum := Pagination.toNat_of_checkedAdd hcount
      have hsize := count.toNat_lt_size
      rw [hlength] at hsum
      show Page.new items params count = none ↔ _
      rw [Page.new_eq_none_iff hitems]
      omega

theorem count_of_pageOf_none (hitems : items.length < UInt64.size) {page : Page α}
    (h : pageOf items params none = some page) :
    page.count.toNat = params.offset.toNat + items.length := by
  obtain ⟨count, hcount, hpage⟩ := Option.bind_eq_some_iff.1 h
  obtain ⟨_, _, rfl⟩ := Page.new_eq_some_iff.1 hpage
  have hsum := Pagination.toNat_of_checkedAdd hcount
  rwa [UInt64.toNat_ofNat_of_lt' hitems] at hsum

/-- The numbers of a page are those of exact arithmetic, where products and sums may stay at the
largest number, and two sums break the page off exactly where they do not fit.  The page after the
largest one is asked for if there are more rows, which takes pages of at most one row; and without
a number of all rows the last one may lie behind the largest number. -/
theorem page_numbers_exact_iff {α : Type} (params : Pagination) (items : List α)
    (hitems : items.length < UInt64.size) :
    (params.number.toNat = max 1 params.page.toNat ∧
      (params.number - 1).toNat + 1 = params.number.toNat ∧
      params.offset.toNat =
        min ((params.number.toNat - 1) * params.perPage.toNat) (UInt64.size - 1) ∧
      (Pagination.clampedAdd params.offset (.ofNat items.length)).toNat =
        min (params.offset.toNat + items.length) (UInt64.size - 1)) ∧
    (∀ count, Page.new items params count = none ↔
      params.page.toNat = UInt64.size - 1 ∧
        (params.perPage = 0 ∧ items.length < count.toNat ∨
          params.perPage = 1 ∧ items = [] ∧ count.toNat = UInt64.size - 1)) ∧
    (∀ count page, Page.new items params count = some page →
      (∀ next, page.nextPage = some next →
        next.toNat = params.number.toNat + 1 ∧ params.number < next) ∧
      ∀ previous, page.previousPage = some previous →
        1 ≤ previous ∧ previous < params.number) ∧
    (pageOf items params none = none ↔
      items ≠ [] ∧
        UInt64.size ≤ (params.number.toNat - 1) * params.perPage.toNat + items.length) ∧
    (∀ page, pageOf items params none = some page →
      page.count.toNat = params.offset.toNat + items.length) := by
  have hnumber := params.toNat_number
  have hlength : (UInt64.ofNat items.length).toNat = items.length :=
    UInt64.toNat_ofNat_of_lt' hitems
  refine ⟨⟨hnumber, ?_, params.toNat_offset_eq_min, ?_⟩, fun count => ?_, fun count page hpage =>
    ⟨fun next hnext => ?_, fun previous hprevious => ?_⟩, ?_,
    fun page => count_of_pageOf_none hitems⟩
  · have hbefore := params.toNat_number_sub_one
    omega
  · rw [Pagination.toNat_clampedAdd_eq_min, hlength]
  · have hlargest : params.page.toNat = UInt64.size - 1 ↔
        params.number.toNat = UInt64.size - 1 := by
      have hsize : 2 < UInt64.size := by decide
      omega
    rw [Page.new_eq_none_iff hitems, hlargest, ← List.length_eq_zero_iff]
    exact and_congr_right fun h => Page.largest_followed_iff h
  · have hnext := Page.toNat_nextPage hpage hnext
    rw [UInt64.lt_iff_toNat_lt]
    exact ⟨hnext, by omega⟩
  · obtain ⟨hfirst, hbefore⟩ := Page.toNat_previousPage hpage hprevious
    rw [UInt64.le_iff_toNat_le, UInt64.lt_iff_toNat_lt]
    exact ⟨hfirst, by omega⟩
  · have hfits := params.toNat_offset_add_lt_iff items.length
    rw [pageOf_none_eq_none_iff hitems, ne_eq, ← List.length_eq_zero_iff]
    omega

/-- The page before the largest one, which one row is left behind. -/
theorem page_numbers_exact_iff_capri :
    ["Capri"].length < UInt64.size ∧
    Page.new ["Capri"] ⟨18446744073709551614, 1⟩ 18446744073709551615 ≠ none ∧
    pageOf ["Capri"] ⟨18446744073709551614, 1⟩ none ≠ none := by
  have hitems : ["Capri"].length < UInt64.size := by decide
  obtain ⟨_, hnew, _, hcount, _⟩ :=
    page_numbers_exact_iff ⟨18446744073709551614, 1⟩ ["Capri"] hitems
  exact ⟨hitems, mt (hnew 18446744073709551615).1 (by decide), mt hcount.1 (by decide)⟩

/-- Behind the largest page there is no other, and no row behind the largest number. -/
theorem not_page_numbers_exact_largest :
    (Page.new ([] : List String) ⟨18446744073709551615, 0⟩ 1).isNone ∧
    (pageOf ["Capri"] ⟨2, 18446744073709551615⟩ none).isNone := by
  decide

end Collection

end DocGraph
