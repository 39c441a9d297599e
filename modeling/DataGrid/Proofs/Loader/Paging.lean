import DataGrid.Proofs.Loader.Leaves
import DataGrid.Proofs.Store.RowCounts

/-!
# Pages of an answer

Requests that differ in their page only show parts of one answer (`Loader.answer_pageOf`): pages of
one size, one after another, make up its data, and each of them has its counts and its totals. The
number of records is the one that a count query gives (`Loader.count_of_answer`), whether it comes
of the data, of another call, of the records that are grouped, or of flat rows.
-/

namespace DataGrid

namespace Page

/-- A part of the data. -/
def part (skip n : Nat) : Page → Page
  | records rs => .records (page skip (some n) rs)
  | groups gs => .groups (page skip (some n) gs)

/-- Pages that make up data: nothing is lost, doubled or put elsewhere. -/
inductive Tiles : List Page → Page → Prop where
  /-- pages of records -/
  | records (pages : List (List Value)) : Tiles (pages.map .records) (.records pages.flatten)
  /-- pages of groups -/
  | groups (pages : List (List (Group Value))) : Tiles (pages.map .groups) (.groups pages.flatten)

end Page

theorem page_zero_none {α : Type} (xs : List α) : page 0 none xs = xs := List.drop_zero

/-- Pages from the start make up what stands before the next one. -/
theorem flatten_pages {α : Type} (n : Nat) (xs : List α) (pages : Nat) :
    ((List.range pages).map fun k => page (k * n) (some n) xs).flatten = xs.take (pages * n) := by
  induction pages with
  | zero =>
    rw [Nat.zero_mul, List.take_zero]
    rfl
  | succ pages ih =>
    rw [List.range_succ, List.map_append, List.flatten_append, ih, Nat.succ_mul, List.take_add]
    simp only [List.map_singleton, List.flatten_singleton, page]

/-- So many pages that nothing is left make up all data. -/
theorem Page.tiles_parts {n : Nat} (data : Page) {pages : Nat} (enough : data.size ≤ pages * n) :
    Tiles ((List.range pages).map fun k => data.part (k * n) n) data := by
  cases data with
  | records rs =>
    have all := flatten_pages n rs pages
    rw [List.take_of_length_le enough] at all
    have tiles := Tiles.records ((List.range pages).map fun k => page (k * n) (some n) rs)
    rw [all, List.map_map] at tiles
    exact tiles
  | groups gs =>
    have all := flatten_pages n gs pages
    rw [List.take_of_length_le enough] at all
    have tiles := Tiles.groups ((List.range pages).map fun k => page (k * n) (some n) gs)
    rw [all, List.map_map] at tiles
    exact tiles

namespace LoadRequest

/-- The request for a page of a size. -/
def pageOf (o : LoadRequest) (skip n : Nat) : LoadRequest := { o with skip := skip, take := some n }

/-- The request for the number of records alone. -/
def counting (o : LoadRequest) : LoadRequest := { o with isCountQuery := true }

/-- A page of a size is given whole if no less is allowed. -/
theorem pageSize_pageOf {o : LoadRequest} {skip n : Nat} (positive : 0 < n) {greatest : Option Nat}
    (room : ∀ m, greatest = some m → n ≤ m) : (o.pageOf skip n).pageSize greatest = some n := by
  have wanted : (some n).filter (0 < ·) = some n := by simp [positive]
  rw [pageSize.eq_def, pageOf, wanted]
  cases greatest with
  | none => rfl
  | some m => exact congrArg some (Nat.min_eq_left (room m rfl))

end LoadRequest

namespace Store

variable {s : Store} {predicate : Predicate} {sort : List Sorting} {whole : List Value}

/-- A page of the records is a page of all of them, as they are sorted. -/
theorem load_page (h : s.load false ⟨predicate, sort, 0, none⟩ = .ok whole) (skip : Nat)
    (take : Option Nat) :
    s.load false ⟨predicate, sort, skip, take⟩ = .ok (page skip take whole) := by
  obtain ⟨found, sorter, sorted, hselect, hsorter, hsort, rfl⟩ := load_eq_ok.1 h
  rw [page_zero_none]
  exact load_eq_ok.2 ⟨found, sorter, sorted, hselect, hsorter, hsort, rfl⟩

/-- All records that are loaded are those that match, in another order. -/
theorem exists_select_of_load (h : s.load false ⟨predicate, sort, 0, none⟩ = .ok whole) :
    ∃ found, select predicate s.records = .ok found ∧ whole.length = found.length := by
  obtain ⟨found, sorter, sorted, hselect, -, hsort, rfl⟩ := load_eq_ok.1 h
  exact ⟨found, hselect, (Sorter.sort_perm hsort).length_eq⟩

end Store

namespace Loader

variable {store : Store} {config : LoaderSettings} {o : LoadRequest} {predicate : Predicate}
variable {s : Settings} {r : LoadAnswer} {skip n : Nat}

/-- A page of an answer, with its counts and totals. -/
def partOf (r : LoadAnswer) (skip n : Nat) : LoadAnswer := { r with data := r.data.part skip n }

/-! ### Each way gives pages of one answer -/

section Pages

variable (positive : 0 < n) (room : ∀ m, config.maxTake = some m → n ≤ m)
include positive room

theorem paginate_pageOf (gs : List (Group Value)) :
    (overStore store config).paginate (o.pageOf skip n) gs
      = partOf ((overStore store config.unlimited).paginate o.unpaged gs) skip n := by
  rw [paginate]
  have shown : (o.pageOf skip n).pageSize (overStore store config).config.maxTake = some n :=
    LoadRequest.pageSize_pageOf positive room
  rw [shown]
  rfl

theorem groupsHereOf_pageOf
    (h : groupsHereOf store config.unlimited o.unpaged predicate s = .ok r) :
    groupsHereOf store config (o.pageOf skip n) predicate s = .ok (partOf r skip n) := by
  obtain ⟨records, hrecords, h⟩ := Outcome.bind_eq_ok.1 h
  obtain ⟨result, hresult, h⟩ := Outcome.bind_eq_ok.1 h
  cases h
  refine Outcome.bind_eq_ok.2 ⟨records, hrecords, Outcome.bind_eq_ok.2 ⟨result, hresult, ?_⟩⟩
  simp only [paginate_pageOf positive room]
  rfl

theorem groupsOfBackendOf_pageOf
    (h : groupsOfBackendOf store config.unlimited o.unpaged predicate s = .ok r) :
    groupsOfBackendOf store config (o.pageOf skip n) predicate s = .ok (partOf r skip n) := by
  obtain ⟨⟨regrouped, countPosition⟩, hgrouped, h⟩ := Outcome.bind_eq_ok.1 h
  obtain ⟨gs, hgs, h⟩ := Outcome.bind_eq_ok.1 h
  cases h
  refine Outcome.bind_eq_ok.2 ⟨_, hgrouped, Outcome.bind_eq_ok.2 ⟨gs, hgs, ?_⟩⟩
  simp only [paginate_pageOf positive room]
  rfl

/-- The number of records, if it is asked for, comes with the data of the whole and of another call
for a page; it is the same. -/
theorem recordPageOf_pageOf {remote : Bool}
    (h : recordPageOf store config.unlimited o.unpaged predicate s remote = .ok r) :
    recordPageOf store config (o.pageOf skip n) predicate s remote = .ok (partOf r skip n) := by
  obtain ⟨summary, hsummary, h⟩ := Outcome.bind_eq_ok.1 h
  obtain ⟨data, hdata, h⟩ := Outcome.bind_eq_ok.1 h
  obtain ⟨totalCount, hcount, h⟩ := Outcome.bind_eq_ok.1 h
  cases h
  have hdata : store.load false ⟨predicate, o.sort, 0, none⟩ = .ok data :=
    Outcome.mapError_eq_ok.1 hdata
  have shown : (o.pageOf skip n).pageSize config.maxTake = some n :=
    LoadRequest.pageSize_pageOf positive room
  refine Outcome.bind_eq_ok.2 ⟨summary, hsummary, Outcome.bind_eq_ok.2
    ⟨page skip (some n) data, ?_, Outcome.bind_eq_ok.2 ⟨totalCount, ?_, rfl⟩⟩⟩
  · rw [shown]
    exact Outcome.mapError_eq_ok.2 (Store.load_page hdata skip (some n))
  · rw [shown]
    rw [totalCountOf] at hcount ⊢
    have asked : (o.pageOf skip n).requireTotalCount = o.unpaged.requireTotalCount := rfl
    rw [asked]
    split at hcount
    next no => rwa [if_pos no]
    next yes =>
      obtain ⟨found, hselect, length⟩ := Store.exists_select_of_load hdata
      have whole : o.unpaged.skip = 0 ∧ o.unpaged.pageSize config.unlimited.maxTake = none :=
        ⟨rfl, rfl⟩
      rw [if_pos whole] at hcount
      cases hcount
      rw [if_neg yes, if_neg fun h => Option.some_ne_none n h.2]
      refine Outcome.bind_eq_ok.2 ⟨found.length, ?_, ?_⟩
      · exact Outcome.mapError_eq_ok.2 (Store.count_eq_ok.2 ⟨found, hselect, rfl⟩)
      · rw [length]
        rfl

/-- A page of a request is a page of its answer. -/
theorem answer_pageOf (h : answer store config.unlimited o.unpaged predicate = .ok r) :
    answer store config (o.pageOf skip n) predicate = .ok (partOf r skip n) := by
  -- the way of a request does not depend on its page
  rcases answer_eq_ok.1 h with ⟨mere, count, hcount, rfl⟩ | ⟨mere, plain, h⟩
    | ⟨mere, grouped, remote, h⟩ | ⟨mere, grouped, here, h⟩
  · refine answer_eq_ok.2 (.inl ⟨mere, count, hcount, ?_⟩)
    simp [partOf, Page.part, page, LoadAnswer.ofData]
  · exact answer_eq_ok.2 (.inr (.inl ⟨mere, plain, recordPageOf_pageOf positive room h⟩))
  · exact answer_eq_ok.2 (.inr (.inr (.inl
      ⟨mere, grouped, remote, groupsOfBackendOf_pageOf positive room h⟩)))
  · exact answer_eq_ok.2 (.inr (.inr (.inr
      ⟨mere, grouped, here, groupsHereOf_pageOf positive room h⟩)))

end Pages

/-! ### The number of records -/

/-- The number of records of an answer is that of the records that match. -/
theorem count_of_answer (h : answer store config.unlimited o.unpaged predicate = .ok r) :
    ∃ found, Store.select predicate store.records = .ok found
      ∧ (o.requireTotalCount = true → Integer.Fits (store.size : Int) →
        r.totalCount = found.length) := by
  rcases answer_eq_ok.1 h with ⟨-, count, hcount, rfl⟩ | ⟨-, -, h⟩ | ⟨-, -, -, h⟩ | ⟨-, -, -, h⟩
  · obtain ⟨found, hselect, rfl⟩ := Store.count_eq_ok.1 hcount
    exact ⟨found, hselect, fun _ _ => rfl⟩
  · obtain ⟨summary, -, h⟩ := Outcome.bind_eq_ok.1 h
    obtain ⟨data, hdata, h⟩ := Outcome.bind_eq_ok.1 h
    obtain ⟨totalCount, hcount, h⟩ := Outcome.bind_eq_ok.1 h
    cases h
    obtain ⟨found, hselect, length⟩ :=
      Store.exists_select_of_load (Outcome.mapError_eq_ok.1 hdata)
    refine ⟨found, hselect, fun asked _ => ?_⟩
    have asked : ¬ (!o.unpaged.requireTotalCount) = true := by
      rw [show o.unpaged.requireTotalCount = true from asked]
      exact Bool.false_ne_true
    have whole : o.unpaged.skip = 0 ∧ o.unpaged.pageSize config.unlimited.maxTake = none :=
      ⟨rfl, rfl⟩
    rw [totalCountOf, if_neg asked, if_pos whole] at hcount
    cases hcount
    rw [length]
  · obtain ⟨⟨regrouped, countPosition⟩, hgrouped, h⟩ := Outcome.bind_eq_ok.1 h
    obtain ⟨gs, -, h⟩ := Outcome.bind_eq_ok.1 h
    cases h
    obtain ⟨found, hselect, counts⟩ := totalCount_of_grouped hgrouped
    refine ⟨found, hselect, fun asked fits => ?_⟩
    rw [← counts fits]
    exact if_pos asked
  · obtain ⟨records, hrecords, h⟩ := Outcome.bind_eq_ok.1 h
    obtain ⟨result, -, h⟩ := Outcome.bind_eq_ok.1 h
    cases h
    obtain ⟨found, hselect, length⟩ :=
      Store.exists_select_of_load (Outcome.mapError_eq_ok.1 hrecords)
    refine ⟨found, hselect, fun asked _ => ?_⟩
    rw [← length]
    exact if_pos asked

theorem answer_counting {found : List Value}
    (h : Store.select predicate store.records = .ok found) :
    answer store config o.counting predicate
      = .ok { LoadAnswer.ofData (.records []) with totalCount := found.length } :=
  answer_eq_ok.2 (.inl ⟨rfl, found.length, Store.count_eq_ok.2 ⟨found, h, rfl⟩, rfl⟩)

/-- Pages of one size, which no greatest number cuts short, tile the data of the answer without a
page, and every page comes with its counts and totals, also behind the end. The number of records,
if it is asked for, is the one that a count query with the same criteria gives. -/
theorem serve_pageOf {registry : Option Registry} (positive : 0 < n)
    (room : ∀ m, config.maxTake = some m → n ≤ m)
    (whole : ((overStore store config.unlimited).serve o.unpaged false registry).1 = .ok r) :
    (∃ pageAt : Nat → LoadAnswer,
      (∀ skip, ((overStore store config).serve (o.pageOf skip n) false registry).1
          = .ok (pageAt skip)
        ∧ (pageAt skip).totalCount = r.totalCount ∧ (pageAt skip).groupCount = r.groupCount
        ∧ (pageAt skip).summary = r.summary)
      ∧ ∀ pages, r.data.size ≤ pages * n →
        Page.Tiles ((List.range pages).map fun k => (pageAt (k * n)).data) r.data)
    ∧ ∃ counted, ((overStore store config).serve o.counting false registry).1 = .ok counted
      ∧ (o.requireTotalCount = true → Integer.Fits (store.size : Int) →
        r.totalCount = counted.totalCount) := by
  rw [serve_eq] at whole
  obtain ⟨predicate, hpredicate, hanswer⟩ := Outcome.bind_eq_ok.1 whole
  have served : ∀ {o' : LoadRequest} {r' : LoadAnswer}, o'.filter = o.filter →
      o'.stringToLower = o.stringToLower → answer store config o' predicate = .ok r' →
      ((overStore store config).serve o' false registry).1 = .ok r' := by
    intro o' r' filter folding h
    have criteria : o'.criteria = o.unpaged.criteria := by
      rw [LoadRequest.criteria, filter]
      rfl
    have settings : (overStore store config).settings o'
        = (overStore store config.unlimited).settings o.unpaged := by
      rw [settings, folding]
      rfl
    rw [serve_eq]
    refine Outcome.bind_eq_ok.2 ⟨predicate, ?_, h⟩
    rw [predicateOf, settings, criteria]
    exact hpredicate
  refine ⟨⟨fun skip => partOf r skip n, fun skip => ⟨?_, rfl, rfl, rfl⟩, fun pages enough => ?_⟩,
    ?_⟩
  · exact served rfl rfl (answer_pageOf positive room hanswer)
  · exact Page.tiles_parts r.data enough
  · obtain ⟨found, hselect, counts⟩ := count_of_answer hanswer
    exact ⟨_, served rfl rfl (answer_counting hselect), counts⟩

/-- Visits by town in pages of two groups, the greatest number that is given: the second page holds
one group, and all further ones none. -/
theorem serve_pageOf_towns :
    let shape := Shape.mk "Visit" [.mk "town" .string true, .plain "size" .int32]
    let visit (town : Value) (size : Int64) := Value.object [("town", town), ("size", .int size)]
    let store : Store := ⟨shape, [visit (.string "Ulm") 3, visit .null 1, visit (.string "Bonn") 2,
      visit (.string "Ulm") 5, visit .null 9]⟩
    let config := LoaderSettings.standard.limitedTo 2
    let o : LoadRequest := { LoadRequest.everything with
      requireTotalCount := true, requireGroupCount := true, remoteGrouping := some true
      filter := some (.array [.string "size", .string "<", .int 9])
      group := [(Grouping.on "town").collapsed]
      totalSummary := [⟨some "size", .sum⟩] }
    ∃ (r : LoadAnswer) (pageAt : Nat → LoadAnswer),
      ((overStore store config.unlimited).serve o.unpaged false none).1 = .ok r
      ∧ r.data.size = 3 ∧ r.totalCount = 4 ∧ r.groupCount = 3
      ∧ (∀ skip, ((overStore store config).serve (o.pageOf skip 2) false none).1 = .ok (pageAt skip)
        ∧ (pageAt skip).totalCount = r.totalCount ∧ (pageAt skip).groupCount = r.groupCount
        ∧ (pageAt skip).summary = r.summary)
      ∧ Page.Tiles ((List.range 2).map fun k => (pageAt (k * 2)).data) r.data
      ∧ Page.Tiles ((List.range 7).map fun k => (pageAt (k * 2)).data) r.data
      ∧ ∃ counted, ((overStore store config).serve o.counting false none).1 = .ok counted
        ∧ r.totalCount = counted.totalCount := by
  intro shape visit store config o
  have room : ∀ m, config.maxTake = some m → 2 ≤ m := by
    intro m hm
    cases hm
    exact Nat.le_refl 2
  have fits : Integer.Fits (store.size : Int) := ⟨by decide, by decide⟩
  have told : (((overStore store config.unlimited).serve o.unpaged false none).1.toOption.map
      fun r => (r.data.size, r.totalCount, r.groupCount)) = some (3, 4, 3) := by decide +kernel
  have asked : o.requireTotalCount = true := rfl
  clear_value o store config
  generalize hr : ((overStore store config.unlimited).serve o.unpaged false none).1 = whole at told
  rcases whole with _ | r
  · cases told
  · obtain ⟨size, total, groups⟩ : r.data.size = 3 ∧ r.totalCount = 4 ∧ r.groupCount = 3 := by
      simpa [Except.toOption] using told
    obtain ⟨⟨pageAt, served, tiles⟩, counted, counts, same⟩ :=
      serve_pageOf (n := 2) (by decide) room hr
    exact ⟨r, pageAt, rfl, size, total, groups, served, tiles 2 (by omega), tiles 7 (by omega),
      counted, counts, same asked fits⟩

end Loader

end DataGrid
