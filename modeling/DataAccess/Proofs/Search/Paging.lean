import DataAccess.Proofs.Flavor.Windows
import DataAccess.Search
import Mathlib.Logic.ExistsUnique

/-!
# Pages

The pages of a search cut its rows without a gap and without a row in two of them. Places are cut
at the greatest offset, which no row that is counted reaches.
-/

set_option autoImplicit false

namespace DataAccess

namespace Page

variable {α : Type} {page : Page α} {total : Nat}

theorem lt_pageCount_iff {count k : Nat} (hsize : 1 ≤ page.pageSize)
    (htotal : page.total? = some total) (hcount : page.pageCount? = some count) :
    k < count ↔ k * page.pageSize < total := by
  have hne : page.pageSize ≠ 0 := Nat.one_le_iff_ne_zero.mp hsize
  rw [pageCount?, htotal, Option.map_some, if_neg hne, Option.some.injEq] at hcount
  rw [← hcount, Nat.lt_div_iff_mul_lt hsize]
  omega

theorem exists_pageCount (htotal : page.total? = some total) :
    ∃ count, page.pageCount? = some count :=
  ⟨_, by rw [pageCount?, htotal, Option.map_some]⟩

theorem hasNext_iff (hsize : 1 ≤ page.pageSize) (htotal : page.total? = some total) :
    page.hasNext = true ↔ page.pageNo * page.pageSize < total := by
  obtain ⟨count, hcount⟩ := exists_pageCount htotal
  rw [hasNext, hcount, Option.any_some, decide_eq_true_iff]
  exact lt_pageCount_iff hsize htotal hcount

end Page

namespace Search

def page (search : Search) (size n : Nat) : Search :=
  { search with pageNo := n, pageSize? := some size }

def Shows (search : Search) (row : Nat) : Prop :=
  ∃ offset limit, search.paging? = some (offset, limit) ∧ offset ≤ row ∧ row < offset + limit

theorem maxOffset_le : maxOffset + maxOffset ≤ Count.greatest := by decide

variable {search : Search} {size n row total : Nat}

theorem startPos_page :
    (search.page size n).startPos = min ((n - 1) * size) maxOffset + 1 := by
  have hmax := maxOffset_le
  have hbound : min ((n - 1) * size) maxOffset ≤ maxOffset := Nat.min_le_right _ _
  have hpos : 1 ≤ maxOffset := by decide
  calc (search.page size n).startPos
      = Count.add (min (Count.mul (n - 1) size) maxOffset) 1 := rfl
    _ = Count.add (min ((n - 1) * size) maxOffset) 1 := by rw [Count.min_mul (by omega)]
    _ = min ((n - 1) * size) maxOffset + 1 := Count.add_eq (by omega)

theorem paging?_page (hsize : 1 ≤ size) :
    (search.page size n).paging? = some (min ((n - 1) * size) maxOffset, min size maxOffset) := by
  obtain ⟨size, rfl⟩ := Nat.exists_eq_add_of_le' hsize
  show some ((search.page (size + 1) n).startPos - 1, min (size + 1) maxOffset) = _
  rw [startPos_page, Nat.add_sub_cancel]

theorem shows_page (hsize : 1 ≤ size) :
    (search.page size n).Shows row ↔
      min ((n - 1) * size) maxOffset ≤ row ∧
        row < min ((n - 1) * size) maxOffset + min size maxOffset := by
  constructor
  · rintro ⟨offset, limit, hpaging, hwithin⟩
    rw [paging?_page hsize, Option.some.injEq, Prod.mk.injEq] at hpaging
    obtain ⟨rfl, rfl⟩ := hpaging
    exact hwithin
  · exact fun hwithin => ⟨_, _, paging?_page hsize, hwithin⟩

theorem shows_page_iff (hn : 1 ≤ n) (hsize : 1 ≤ size) (hrow : row < maxOffset) :
    (search.page size n).Shows row ↔ n = row / size + 1 := by
  obtain ⟨k, rfl⟩ := Nat.exists_eq_add_of_le' hn
  rw [shows_page hsize, Nat.add_sub_cancel, Nat.add_right_cancel_iff]
  constructor
  · rintro ⟨hle, hlt⟩
    -- a cut offset would be the greatest one, and the row is in front of that
    have huncut : k * size ≤ row := by omega
    have hend : row < (k + 1) * size := by rw [Nat.succ_mul]; omega
    exact (Nat.div_eq_of_lt_le huncut hend).symm
  · rintro rfl
    have hle : row / size * size ≤ row := Nat.div_mul_le_self row size
    have hlt : row < row / size * size + size := Nat.lt_div_mul_add hsize
    omega

theorem existsUnique_page (search : Search) {α : Type} {page : Page α} {count : Nat}
    (hsize : 1 ≤ page.pageSize) (htotal : page.total? = some total) (hbound : total ≤ maxOffset)
    (hcount : page.pageCount? = some count) (hrow : row < total) :
    ∃! k, (1 ≤ k ∧ k ≤ count) ∧ (search.page page.pageSize k).Shows row := by
  have hlt : row < maxOffset := Nat.lt_of_lt_of_le hrow hbound
  refine ⟨row / page.pageSize + 1, ⟨⟨Nat.succ_pos _, ?_⟩, ?_⟩, ?_⟩
  · have hle : row / page.pageSize * page.pageSize ≤ row := Nat.div_mul_le_self _ _
    exact (Page.lt_pageCount_iff hsize htotal hcount).mpr (Nat.lt_of_le_of_lt hle hrow)
  · exact (shows_page_iff (Nat.succ_pos _) hsize hlt).mpr rfl
  · rintro k ⟨⟨hk, -⟩, hshows⟩
    exact (shows_page_iff hk hsize hlt).mp hshows

theorem limited_eq_iff {flavor : Flavor} {sql : String} {clause : WindowClause}
    {offset limit : Nat} (hoffset : offset ≤ maxOffset) (hlimit : limit ≤ maxOffset) :
    flavor.limited sql offset limit =
        clause.text flavor (Flavor.splitLock sql).1 ++ (Flavor.splitLock sql).2 ↔
      clause = .ofWindow flavor offset limit := by
  have hsum : offset + limit ≤ Count.greatest :=
    Nat.le_trans (Nat.add_le_add hoffset hlimit) maxOffset_le
  have hlimited : flavor.limited sql offset limit =
      flavor.window (Flavor.splitLock sql).1 offset limit ++ (Flavor.splitLock sql).2 := rfl
  rw [hlimited, WindowClause.window_eq hsum, String.append_left_inj,
    WindowClause.text_injective.eq_iff]
  exact eq_comm

/-- Pages of any size cut the rows that are counted: the page's place without overflow, each row on
one of the pages, a next page when it starts in front of the last row, and for each flavor the one
clause that is written, which keeps the page's rows. -/
theorem pages_tile {α : Type} (search : Search) (elements : List α) (hsize : 1 ≤ size)
    (htotal : total ≤ maxOffset) :
    (search.page size n).startPos = min ((n - 1) * size) maxOffset + 1 ∧
    (∃ offset limit,
      (search.page size n).paging? = some (offset, limit) ∧
      offset = min ((n - 1) * size) maxOffset ∧ limit = min size maxOffset ∧
      ∀ flavor : Flavor,
        (∀ (sql : String) (clause : WindowClause),
          flavor.limited sql offset limit =
              clause.text flavor (Flavor.splitLock sql).1 ++ (Flavor.splitLock sql).2 ↔
            clause = .ofWindow flavor offset limit) ∧
        ((WindowClause.ofWindow flavor offset limit).offset? = none ↔ offset = 0) ∧
        ∀ row, (WindowClause.ofWindow flavor offset limit).Keeps flavor row ↔
          (search.page size n).Shows row) ∧
    (∃ count,
      (Page.mk n size (some total) elements).pageCount? = some count ∧
      ∀ row < total, ∃! k, (1 ≤ k ∧ k ≤ count) ∧ (search.page size k).Shows row) ∧
    ((Page.mk n size (some total) elements).hasNext = true ↔
      min (n * size) maxOffset < total) := by
  refine ⟨startPos_page, ⟨_, _, paging?_page hsize, rfl, rfl, fun flavor => ⟨?_, ?_, ?_⟩⟩, ?_, ?_⟩
  · exact fun _ _ => limited_eq_iff (Nat.min_le_right _ _) (Nat.min_le_right _ _)
  · exact WindowClause.offset?_ofWindow
  · intro row
    rw [WindowClause.keeps_ofWindow, shows_page hsize]
  · obtain ⟨count, hcount⟩ := (Page.mk n size (some total) elements).exists_pageCount rfl
    exact ⟨count, hcount, fun row => existsUnique_page search hsize rfl htotal hcount⟩
  · have hcut : n * size < total ↔ min (n * size) maxOffset < total := by omega
    rw [← hcut]
    exact Page.hasNext_iff hsize rfl

theorem pages_tile_last :
    (1 ≤ 10 ∧ 30 ≤ maxOffset) ∧
    (page { business := "user" } 10 3).paging? = some (20, 10) ∧
    (Page.mk 3 10 (some 30) ([] : List Row)).hasNext = false := by
  have hsize : 1 ≤ 10 := by decide
  have htotal : 30 ≤ maxOffset := by decide
  obtain ⟨-, ⟨offset, limit, hpaging, hoffset, hlimit, -⟩, -, hnext⟩ :=
    pages_tile (n := 3) { business := "user" } ([] : List Row) hsize htotal
  refine ⟨⟨hsize, htotal⟩, ?_, ?_⟩
  · rw [hpaging, hoffset, hlimit]
    decide
  · rw [← Bool.not_eq_true, hnext]
    decide

end Search

end DataAccess
