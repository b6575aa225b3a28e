import DocGraph.Proofs.Client.Conversation
import DocGraph.Proofs.Client.Drain
import DocGraph.Proofs.Server.Moves
/-!
# Results that are read page by page

The pages of a result follow each other without gaps: whoever starts with the first page and goes
on with the next one as long as there is one gets every row once, in order.  The numbers on the way
stay below the largest one, so nothing is clamped and no sum breaks off.
-/

namespace DocGraph

open Outcome

/-! ## Numbers of pages -/

namespace Pagination

variable {params : Pagination}

theorem toNat_number (params : Pagination) : params.number.toNat = max 1 params.page.toNat := by
  unfold number
  split
  · rename_i hzero
    rw [hzero]
    rfl
  · rename_i hpage
    have hpositive : params.page.toNat ≠ 0 := fun h => hpage (UInt64.toNat_inj.1 h)
    omega

theorem toNat_clampedMul_eq_min (a b : UInt64) :
    (clampedMul a b).toNat = min (a.toNat * b.toNat) (UInt64.size - 1) := by
  have hsize : 0 < UInt64.size := by decide
  exact UInt64.toNat_ofNat_of_lt' (by omega)

theorem toNat_clampedAdd_eq_min (a b : UInt64) :
    (clampedAdd a b).toNat = min (a.toNat + b.toNat) (UInt64.size - 1) := by
  have hsize : 0 < UInt64.size := by decide
  exact UInt64.toNat_ofNat_of_lt' (by omega)

theorem toNat_clampedAdd {a b : UInt64} (h : a.toNat + b.toNat < UInt64.size) :
    (clampedAdd a b).toNat = a.toNat + b.toNat := by
  rw [toNat_clampedAdd_eq_min]
  exact Nat.min_eq_left (by omega)

theorem checkedAdd_of_lt {a b : UInt64} (h : a.toNat + b.toNat < UInt64.size) :
    checkedAdd a b = some (a + b) := if_pos h

theorem checkedAdd_eq_none_iff {a b : UInt64} :
    checkedAdd a b = none ↔ UInt64.size ≤ a.toNat + b.toNat := by
  unfold checkedAdd
  split <;> simp <;> omega

theorem toNat_of_checkedAdd {a b c : UInt64} (h : checkedAdd a b = some c) :
    c.toNat = a.toNat + b.toNat := by
  obtain ⟨hfits, hsum⟩ := Option.ite_none_right_eq_some.1 h
  obtain rfl := Option.some.inj hsum
  exact (UInt64.toNat_add a b).trans (Nat.mod_eq_of_lt hfits)

theorem toNat_number_sub_one (params : Pagination) :
    (params.number - 1).toNat = params.number.toNat - 1 := by
  refine UInt64.toNat_sub_of_le _ _ ?_
  rw [UInt64.le_iff_toNat_le, toNat_number]
  exact Nat.le_max_left 1 _

theorem toNat_offset_eq_min (params : Pagination) :
    params.offset.toNat =
      min ((params.number.toNat - 1) * params.perPage.toNat) (UInt64.size - 1) := by
  rw [offset, toNat_clampedMul_eq_min, toNat_number_sub_one]

theorem toNat_offset (h : (params.number.toNat - 1) * params.perPage.toNat < UInt64.size) :
    params.offset.toNat = (params.number.toNat - 1) * params.perPage.toNat := by
  rw [toNat_offset_eq_min]
  exact Nat.min_eq_left (by omega)

def before (params : Pagination) : Option UInt64 :=
  if 1 < params.number then some (params.number - 1) else none

theorem toNat_number_add_one (h : params.number.toNat + 1 < UInt64.size) :
    (params.number + 1).toNat = params.number.toNat + 1 :=
  toNat_of_checkedAdd (checkedAdd_of_lt (b := 1) h)

theorem number_next (params : Pagination) (h : params.number.toNat + 1 < UInt64.size)
    (perPage : UInt64) :
    (mk (params.number + 1) perPage).number.toNat = params.number.toNat + 1 ∧
      before ⟨params.number + 1, perPage⟩ = some params.number := by
  have hnext := toNat_number_add_one h
  have hnumber : (mk (params.number + 1) perPage).number = params.number + 1 := by
    rw [← UInt64.toNat_inj, toNat_number, hnext]
    omega
  have hfirst : 1 < params.number + 1 := by
    have hpositive := toNat_number params
    rw [UInt64.lt_iff_toNat_lt, hnext, UInt64.toNat_one]
    omega
  rw [before, hnumber, if_pos hfirst, UInt64.add_sub_cancel]
  exact ⟨hnext, rfl⟩

end Pagination

/-- The number of pages that some rows fill; without rows there is one page too. -/
def pageCount (rows p : Nat) : Nat := max 1 ((rows + p - 1) / p)

theorem pageCount_of_le {rows p : Nat} (hpositive : 0 < p) (h : rows ≤ p) :
    pageCount rows p = 1 := by
  refine Nat.max_eq_left (Nat.le_of_lt_succ ?_)
  rw [Nat.div_lt_iff_lt_mul hpositive]
  omega

theorem pageCount_of_lt {rows p : Nat} (hpositive : 0 < p) (h : p < rows) :
    pageCount rows p = pageCount (rows - p) p + 1 := by
  have hfull : (rows + p - 1) / p = (rows - 1) / p + 1 := by
    rw [show rows + p - 1 = rows - 1 + p by omega, Nat.add_div_right _ hpositive]
  have hone : 1 ≤ (rows - 1) / p := Nat.div_pos (by omega) hpositive
  unfold pageCount
  rw [hfull, show rows - p + p - 1 = rows - 1 by omega]
  omega

/-! ## One page -/

theorem Pagination.clampedAdd_lt_iff {a b count : UInt64} :
    clampedAdd a b < count ↔ a.toNat + b.toNat < count.toNat := by
  have hcount := count.toNat_lt_size
  rw [UInt64.lt_iff_toNat_lt, toNat_clampedAdd_eq_min]
  omega

namespace Page

variable {α : Type} {items : List α} {params : Pagination} {count : UInt64} {length : Nat}

theorem following_eq (hlength : length < UInt64.size) :
    following params length count =
      if params.offset.toNat + length < count.toNat then
        (Pagination.checkedAdd params.number 1).map some
      else some none := by
  simp only [following, Pagination.clampedAdd_lt_iff, UInt64.toNat_ofNat_of_lt' hlength]

theorem following_of_below (hlength : length < UInt64.size)
    (hbelow : params.offset.toNat + length < count.toNat →
      params.number.toNat + 1 < UInt64.size) :
    following params length count =
      some (if params.offset.toNat + length < count.toNat then some (params.number + 1)
        else none) := by
  rw [following_eq hlength]
  by_cases hleft : params.offset.toNat + length < count.toNat
  · rw [if_pos hleft, if_pos hleft, Pagination.checkedAdd_of_lt (hbelow hleft)]
    rfl
  · rw [if_neg hleft, if_neg hleft]

/-- The largest page that rows are left behind cannot name the one after it. -/
theorem following_eq_none_iff (hlength : length < UInt64.size) :
    following params length count = none ↔
      params.number.toNat = UInt64.size - 1 ∧ params.offset.toNat + length < count.toNat := by
  have hnumber := params.number.toNat_lt_size
  rw [following_eq hlength]
  split
  · rename_i hleft
    rw [Option.map_eq_none_iff, Pagination.checkedAdd_eq_none_iff, UInt64.toNat_one]
    omega
  · rename_i hnone
    exact iff_of_false (Option.some_ne_none _) fun h => hnone h.2

theorem new_eq_some_iff {page : Page α} :
    new items params count = some page ↔
      ∃ nextPage, following params items.length count = some nextPage ∧
        page = ⟨items, count, nextPage, params.before⟩ := by
  unfold new
  cases following params items.length count with
  | none => simp
  | some nextPage => simp [Pagination.before, eq_comm]

theorem new_eq_none_iff (hitems : items.length < UInt64.size) :
    new items params count = none ↔
      params.number.toNat = UInt64.size - 1 ∧
        params.offset.toNat + items.length < count.toNat := by
  rw [← following_eq_none_iff hitems, new]
  cases following params items.length count <;> simp

theorem toNat_nextPage {page : Page α} (h : new items params count = some page) {next : UInt64}
    (hnext : page.nextPage = some next) : next.toNat = params.number.toNat + 1 := by
  obtain ⟨nextPage, hfollowing, rfl⟩ := new_eq_some_iff.1 h
  obtain rfl : nextPage = some next := hnext
  unfold following at hfollowing
  split at hfollowing
  · obtain ⟨sum, hsum, hnext⟩ := Option.map_eq_some_iff.1 hfollowing
    obtain rfl := Option.some.inj hnext
    exact Pagination.toNat_of_checkedAdd hsum
  · cases hfollowing

theorem toNat_previousPage {page : Page α} (h : new items params count = some page)
    {previous : UInt64} (hprevious : page.previousPage = some previous) :
    1 ≤ previous.toNat ∧ previous.toNat + 1 = params.number.toNat := by
  obtain ⟨nextPage, _, rfl⟩ := new_eq_some_iff.1 h
  have hbefore : params.before = some previous := hprevious
  obtain ⟨hfirst, rfl⟩ := Option.ite_none_right_eq_some.1 hbefore |>.imp_right Option.some.inj
  rw [UInt64.lt_iff_toNat_lt, UInt64.toNat_one] at hfirst
  rw [params.toNat_number_sub_one]
  omega

end Page

namespace Collection

variable {σ : Type} {answer : σ → Request → Answer × σ} {collection : Collection} {query : Query}
  {params : Pagination}

theorem resultSchema_slice (query : Query) (offset count : UInt64) :
    (query.slice offset count).resultSchema = query.current.schema := by
  simp only [Query.resultSchema, Query.slice, Query.push, Query.current, List.getLast?_concat,
    List.reverse_concat]
  rfl

section

variable [CustomCodecs]

/-- A page is made of what reading its cursor has brought. -/
theorem run_page_of_drained {compiled : CompiledQuery} {transport after : σ} {patience : Nat}
    {attempts : List (Except Error (Drawn Entity))} {last : Cursor (Drawn Entity)}
    (hquery : collection.checkQuery query = .ok ())
    (hcompiled : (query.slice params.offset params.perPage).compile = .ok compiled)
    (hdrained : ((collection.database.cursor compiled true
      (decodeRow query.current.schema)).drain true patience).run answer transport =
        ((attempts, last), after)) :
    (collection.page query params patience).run.run answer transport =
      ((attempts.mapM fun item => (liftM item : Client (Drawn Entity))) >>= fun items =>
        pure (pageOf items params last.fullCount)).run.run answer after := by
  unfold page
  rw [hquery, Client.run_bind_of_ok (Client.run_lift_ok () transport)]
  dsimp only
  rw [hcompiled, Client.run_bind_of_ok (Client.run_lift_ok compiled transport),
    resultSchema_slice, Client.run_bind_of_ok (Client.run_lift hdrained)]

theorem run_page (params : Pagination) {compiled : CompiledQuery} {transport after : σ}
    {rows : List Json} {fullCount : Option UInt64} {items : List (Drawn Entity)}
    (hquery : collection.checkQuery query = .ok ())
    (hcompiled : (query.slice params.offset params.perPage).compile = .ok compiled)
    (hdelivers : Cursor.Delivers answer collection.database.config.database transport
      (openRequest collection.database.config compiled true) rows fullCount after)
    (hitems : rows.map (decodeRow query.current.schema) = items.map .ok) :
    ∃ bound, ∀ patience ≥ bound,
      (collection.page query params patience).run.run answer transport =
        (.ok (pageOf items params fullCount), after) := by
  let cursor := collection.database.cursor compiled true (decodeRow query.current.schema)
  have hasks : cursor.Asks { cursor with initial := none } collection.database.config.database
      (openRequest collection.database.config compiled true) := ⟨rfl, rfl, rfl, rfl, rfl⟩
  have hok : ∀ row ∈ rows, (decodeRow query.current.schema row).isOk := by
    intro row hrow
    have hmem := List.mem_map_of_mem (f := decodeRow query.current.schema) hrow
    rw [hitems] at hmem
    obtain ⟨item, _, hitem⟩ := List.mem_map.1 hmem
    rw [← hitem]
    rfl
  obtain ⟨bound, last, hcount, hdrain⟩ := Cursor.run_drain_of_delivers hdelivers hasks hok
  refine ⟨bound, fun patience hpatience => ?_⟩
  have hcount : last.fullCount = fullCount := hcount.trans Option.or_none
  have hdrained : (cursor.drain true patience).run answer transport =
      ((items.map .ok, last), after) := hitems ▸ hdrain patience hpatience
  rw [run_page_of_drained hquery hcompiled hdrained, Client.mapM_lift_ok, hcount]
  rfl

/-! ## Page after page -/

/-- Some rows of a list, given the number of rows before them and the most there may be. -/
def window {α : Type} (rows : List α) (offset count : UInt64) : List α :=
  (rows.drop offset.toNat).take count.toNat

/-- Whatever window of a query is asked for, its rows are delivered, and the number of all rows.
The transport does so in good states, and stays in them. -/
def ServesWindows (answer : σ → Request → Answer × σ) (Good : σ → Prop) (collection : Collection)
    (query : Query) (rows : List Json) : Prop :=
  ∀ transport, Good transport → ∀ (offset count : UInt64) (compiled : CompiledQuery),
    (query.slice offset count).compile = .ok compiled →
      ∃ after, Good after ∧
        Cursor.Delivers answer collection.database.config.database transport
          (openRequest collection.database.config compiled true) (window rows offset count)
          (some (.ofNat rows.length)) after

structure Visit where
  params : Pagination
  page : Page (Drawn Entity)

/-- Pages that are read one after the other, from one of a number until none is next. -/
inductive Visits (answer : σ → Request → Answer × σ) (collection : Collection) (query : Query)
    (perPage : UInt64) : σ → UInt64 → List Visit → σ → Prop where
  | last {transport after : σ} {number : UInt64} {page : Page (Drawn Entity)}
      (hread : ∃ bound, ∀ patience ≥ bound,
        (collection.page query ⟨number, perPage⟩ patience).run.run answer transport =
          (.ok (some page), after))
      (hnext : page.nextPage = none) :
      Visits answer collection query perPage transport number [⟨⟨number, perPage⟩, page⟩] after
  | next {transport between after : σ} {number next : UInt64} {page : Page (Drawn Entity)}
      {visits : List Visit}
      (hread : ∃ bound, ∀ patience ≥ bound,
        (collection.page query ⟨number, perPage⟩ patience).run.run answer transport =
          (.ok (some page), between))
      (hnext : page.nextPage = some next)
      (hrest : Visits answer collection query perPage between next visits after) :
      Visits answer collection query perPage transport number (⟨⟨number, perPage⟩, page⟩ :: visits)
        after

namespace Visit

/-- Every page names the one that it was reached from, by a number that is at least one; the first
page names a given one. -/
def Linked : Option UInt64 → List Visit → Prop
  | _, [] => True
  | before, visit :: visits =>
    visit.page.previousPage = before ∧ Linked (some visit.params.number) visits

structure Exact (visit : Visit) : Prop where
  offset : visit.params.offset.toNat =
    (visit.params.number.toNat - 1) * visit.params.perPage.toNat
  length : (UInt64.ofNat visit.page.items.length).toNat = visit.page.items.length
  last : (Pagination.clampedAdd visit.params.offset (.ofNat visit.page.items.length)).toNat =
    visit.params.offset.toNat + visit.page.items.length
  next : ∀ next ∈ visit.page.nextPage, next.toNat = visit.params.number.toNat + 1
  previous : ∀ previous ∈ visit.page.previousPage,
    previous.toNat + 1 = visit.params.number.toNat

end Visit

omit [CustomCodecs] in
/-- The page of a window that `k` pages come before. -/
theorem pageOf_window {entities : List (Drawn Entity)} {k p : Nat}
    (hsize : entities.length < UInt64.size) (hperPage : params.perPage.toNat = p)
    (hpositive : 0 < p) (hnumber : params.number.toNat = k + 1)
    (hoffset : k * p ≤ entities.length) :
    ∃ page, pageOf (window entities params.offset params.perPage) params
        (some (.ofNat entities.length)) = some page ∧
      page.items = (entities.drop (k * p)).take p ∧ page.previousPage = params.before ∧
      (page.nextPage =
        if (k + 1) * p < entities.length then some (params.number + 1) else none) ∧
      (Visit.mk params page).Exact := by
  have hexact : params.offset.toNat = (params.number.toNat - 1) * params.perPage.toNat := by
    refine Pagination.toNat_offset ?_
    rw [hnumber, hperPage]
    exact Nat.lt_of_le_of_lt hoffset hsize
  have hbegin : params.offset.toNat = k * p := by
    rw [hexact, hnumber, hperPage, Nat.add_sub_cancel]
  let items := window entities params.offset params.perPage
  have hitems : items = (entities.drop (k * p)).take p := by
    show window entities params.offset params.perPage = _
    rw [window, hbegin, hperPage]
  have hlength : items.length = min p (entities.length - k * p) := by
    rw [hitems, List.length_take, List.length_drop]
  have hfits : (UInt64.ofNat items.length).toNat = items.length :=
    UInt64.toNat_ofNat_of_lt' (by omega)
  have hlast : (Pagination.clampedAdd params.offset (.ofNat items.length)).toNat =
      params.offset.toNat + items.length := by
    rw [Pagination.toNat_clampedAdd, hfits]
    rw [hfits, hbegin, hlength]
    omega
  have hleft : params.offset.toNat + items.length < (UInt64.ofNat entities.length).toNat ↔
      (k + 1) * p < entities.length := by
    rw [UInt64.toNat_ofNat_of_lt' hsize, hbegin, hlength, Nat.add_one_mul]
    omega
  -- A page after this one has a row at least, so its number is at most that of the rows.
  have hfollowing := Page.following_of_below (lt_of_eq_of_lt hfits.symm (UInt64.toNat_lt_size _))
    fun h => by
      have hmore := hleft.1 h
      have hpages : k + 1 ≤ (k + 1) * p := Nat.le_mul_of_pos_right _ hpositive
      rw [hnumber]
      omega
  have hpage := Page.new_eq_some_iff.2 ⟨_, hfollowing, rfl⟩
  exact ⟨_, hpage, hitems, rfl, if_congr hleft rfl rfl, hexact, hfits, hlast,
    fun _ => Page.toNat_nextPage hpage, fun _ hprevious =>
      (Page.toNat_previousPage hpage hprevious).2⟩

structure Paged (answer : σ → Request → Answer × σ) (Good : σ → Prop) (collection : Collection)
    (query : Query) (rows : List Json) (entities : List (Drawn Entity)) : Prop where
  accepts : collection.checkQuery query = .ok ()
  compiles : ∀ offset count, (query.slice offset count).compile.isOk
  serves : ServesWindows answer Good collection query rows
  loads : rows.map (decodeRow query.current.schema) = entities.map .ok
  size : rows.length < UInt64.size

variable {Good : σ → Prop} {rows : List Json} {entities : List (Drawn Entity)}
  {perPage number : UInt64} {k p : Nat} {transport : σ}

theorem Paged.read (h : Paged answer Good collection query rows entities)
    (hperPage : perPage.toNat = p) (hpositive : 0 < p) (hgood : Good transport)
    (hnumber : (Pagination.mk number perPage).number.toNat = k + 1)
    (hbegin : k * p ≤ entities.length) :
    ∃ page after, Good after ∧
      (∃ bound, ∀ patience ≥ bound,
        (collection.page query ⟨number, perPage⟩ patience).run.run answer transport =
          (.ok (some page), after)) ∧
      page.items = (entities.drop (k * p)).take p ∧
      page.previousPage = Pagination.before ⟨number, perPage⟩ ∧
      (page.nextPage = if (k + 1) * p < entities.length then
        some ((Pagination.mk number perPage).number + 1) else none) ∧
      (Visit.mk ⟨number, perPage⟩ page).Exact := by
  have hlength : rows.length = entities.length := by
    simpa using congrArg List.length h.loads
  let params : Pagination := ⟨number, perPage⟩
  obtain ⟨compiled, hcompiled⟩ := exists_of_isOk (h.compiles params.offset perPage)
  obtain ⟨after, hafter, hdelivers⟩ := h.serves transport hgood _ _ compiled hcompiled
  have hitems : (window rows params.offset perPage).map (decodeRow query.current.schema) =
      (window entities params.offset perPage).map .ok := by
    rw [window, List.map_take, List.map_drop, h.loads, ← List.map_drop, ← List.map_take, window]
  have hread := run_page params h.accepts hcompiled hdelivers hitems
  obtain ⟨page, hpage, hwindow⟩ :=
    pageOf_window (hlength ▸ h.size) hperPage hpositive hnumber hbegin
  rw [hlength, hpage] at hread
  exact ⟨page, after, hafter, hread, hwindow⟩

/-- Whoever reads on from a page gets the rows from there to the end. -/
theorem Paged.visits (h : Paged answer Good collection query rows entities)
    (hperPage : perPage.toNat = p) (hpositive : 0 < p) {k : Nat} {number : UInt64} {transport : σ}
    (hgood : Good transport)
    (hnumber : (Pagination.mk number perPage).number.toNat = k + 1)
    (hbegin : k * p ≤ entities.length) :
    ∃ visits after, Good after ∧
      Visits answer collection query perPage transport number visits after ∧
      visits.length = pageCount (entities.length - k * p) p ∧
      visits.flatMap (·.page.items) = entities.drop (k * p) ∧
      Visit.Linked (Pagination.before ⟨number, perPage⟩) visits ∧
      ∀ visit ∈ visits, visit.Exact := by
  obtain ⟨page, after, hafter, hread, hitems, hprevious, hnext, hexact⟩ :=
    h.read hperPage hpositive hgood hnumber hbegin
  by_cases hmore : (k + 1) * p < entities.length
  · have hlength : rows.length = entities.length := by
      simpa using congrArg List.length h.loads
    have hpages : k + 1 ≤ (k + 1) * p := Nat.le_mul_of_pos_right _ hpositive
    have hsize := h.size
    obtain ⟨hnumber', hbefore⟩ := Pagination.number_next ⟨number, perPage⟩ (by omega) perPage
    rw [if_pos hmore] at hnext
    rw [hnumber] at hnumber'
    -- A page with a page after it is full, so fewer rows are left for the rest.
    obtain ⟨visits, last, hlast, hvisits, hcount, hall, hlinked, hexacts⟩ :=
      h.visits hperPage hpositive hafter hnumber' (Nat.le_of_lt hmore)
    refine ⟨⟨⟨number, perPage⟩, page⟩ :: visits, last, hlast, .next hread hnext hvisits, ?_, ?_,
      ⟨hprevious, hbefore ▸ hlinked⟩, List.forall_mem_cons.2 ⟨hexact, hexacts⟩⟩
    · rw [Nat.add_one_mul] at hcount hmore
      rw [List.length_cons, hcount, ← Nat.sub_sub]
      exact (pageCount_of_lt hpositive (by omega)).symm
    · rw [List.flatMap_cons, hall, hitems, Nat.add_one_mul, ← List.drop_drop]
      exact List.take_append_drop p _
  · rw [if_neg hmore] at hnext
    refine ⟨[⟨⟨number, perPage⟩, page⟩], after, hafter, .last hread hnext, ?_, ?_,
      ⟨hprevious, trivial⟩, by simpa using hexact⟩
    · rw [Nat.add_one_mul] at hmore
      exact (pageCount_of_le hpositive (by omega)).symm
    · rw [Nat.add_one_mul] at hmore
      rw [List.flatMap_singleton, hitems, List.take_of_length_le]
      rw [List.length_drop]
      omega
termination_by entities.length - k * p
decreasing_by
  rw [Nat.add_one_mul] at hmore ⊢
  omega

/-- Whoever starts with the first page and goes on with the next one as long as there is one reads
every row once, in order, and each page names the one that it was reached from. -/
theorem pages_cover_rows (hquery : collection.checkQuery query = .ok ())
    (hcompiles : ∀ offset count, (query.slice offset count).compile.isOk)
    (hserves : ServesWindows answer Good collection query rows)
    (hloads : rows.mapM (decodeRow query.current.schema) = .ok entities)
    (hsize : rows.length < UInt64.size) (hperPage : 1 ≤ perPage.toNat)
    (hnumber : number = 0 ∨ number = 1) (hgood : Good transport) :
    ∃ visits after, Good after ∧
      Visits answer collection query perPage transport number visits after ∧
      visits.length = max 1 ((rows.length + perPage.toNat - 1) / perPage.toNat) ∧
      visits.flatMap (·.page.items) = entities ∧
      Visit.Linked none visits ∧ ∀ visit ∈ visits, visit.Exact := by
  have hpaged : Paged answer Good collection query rows entities :=
    ⟨hquery, hcompiles, hserves, map_eq_of_mapM hloads, hsize⟩
  have hlength : rows.length = entities.length := by
    simpa using congrArg List.length hpaged.loads
  have hfirst : (Pagination.mk number perPage).number = 1 := by
    rcases hnumber with rfl | rfl <;> rfl
  have hbefore : Pagination.before ⟨number, perPage⟩ = none := by
    rw [Pagination.before, hfirst]
    rfl
  obtain ⟨visits, after, hafter, hvisits, hcount, hall, hlinked, hexact⟩ :=
    hpaged.visits (k := 0) rfl hperPage hgood (by rw [hfirst]; rfl) (by omega)
  rw [Nat.zero_mul, Nat.sub_zero, ← hlength] at hcount
  rw [Nat.zero_mul, List.drop_zero] at hall
  exact ⟨visits, after, hafter, hvisits, hcount, hall, hbefore ▸ hlinked, hexact⟩

end

/-! ## A server of windows -/

attribute [local instance] CustomCodecs.none

def boundNumber? (request : Request) (parameter : String) : Option UInt64 :=
  ((request.body.bind (·.member? "bindVars")).bind (·.member? parameter)).bind Json.asUInt64?

def windowBody (rows : List Json) (offset count : UInt64) : Json :=
  .ofMembers [
    ("result", .array (window rows offset count)),
    ("hasMore", .bool false),
    ("extra", .ofMembers [("stats", .ofMembers [("fullCount", .ofNat rows.length)])])]

def serveWindow (rows : List Json) (_ : Unit) (request : Request) : Answer × Unit :=
  match boundNumber? request "offset_0", boundNumber? request "count_0" with
  | some offset, some count => (.ok ⟨201, windowBody rows offset count⟩, ())
  | _, _ => (.error (.connection "no window"), ())

def islands : Collection where
  database := ⟨Config.default, Registry.empty⟩
  schema := ⟨"islands", .document, [⟨"name", .primitive .string, true, none, false, none⟩], false,
    []⟩

theorem bindVars_islands {offset count : UInt64} {compiled : CompiledQuery}
    (h : ((Query.ofSchema islands.schema).slice offset count).compile = .ok compiled) :
    compiled.bindVars = Assoc.ofList [("@collection_0", .string "islands"),
      ("offset_0", .ofUInt64 offset), ("count_0", .ofUInt64 count)] := by
  have hrun : (Aql.compileQuery ((Query.ofSchema islands.schema).slice offset count)).run [] =
      .ok (_, [(⟨.collection, 0⟩, .string "islands"), (⟨.offset, 0⟩, .ofUInt64 offset),
        (⟨.count, 0⟩, .ofUInt64 count)]) := rfl
  unfold Query.compile at h
  rw [hrun] at h
  obtain rfl := Except.ok.inj h
  have hkeys : (Aql.Parameter.mk .collection 0).key = "@collection_0" ∧
      (Aql.Parameter.mk .offset 0).key = "offset_0" ∧
      (Aql.Parameter.mk .count 0).key = "count_0" := by decide +kernel
  simp only [List.map_cons, List.map_nil, hkeys.1, hkeys.2.1, hkeys.2.2]

theorem boundNumber?_openRequest (compiled : CompiledQuery) (parameter : String) :
    boundNumber? (openRequest Config.default compiled true) parameter =
      (Assoc.get? parameter compiled.bindVars).bind Json.asUInt64? := by
  let members : Json.Members := [("query", .string compiled.text),
    ("bindVars", .object compiled.bindVars), ("count", .bool false),
    ("options", .ofMembers [("fullCount", .bool true)])]
  have hbody : (openRequest Config.default compiled true).body = some (.ofMembers members) := rfl
  have hvars : (Json.ofMembers members).member? "bindVars" = some (.object compiled.bindVars) :=
    Json.member?_ofMembers (by simp [members]) _
  rw [boundNumber?, hbody, Option.bind_some, hvars]
  rfl

theorem servesWindows_serveWindow (rows : List Json) :
    ServesWindows (serveWindow rows) (fun _ => True) islands (.ofSchema islands.schema) rows := by
  intro transport _ offset count compiled hcompiled
  have hbound (parameter : String) :
      boundNumber? (openRequest Config.default compiled true) parameter =
        (Assoc.get? parameter [("@collection_0", Json.string "islands"),
          ("offset_0", .ofUInt64 offset), ("count_0", .ofUInt64 count)]).bind Json.asUInt64? := by
    rw [boundNumber?_openRequest, bindVars_islands hcompiled, Assoc.get?_ofList (by simp)]
  have hoffset : boundNumber? (openRequest Config.default compiled true) "offset_0" =
      some offset := by
    rw [hbound]
    exact Json.asUInt64?_ofUInt64 offset
  have hcount : boundNumber? (openRequest Config.default compiled true) "count_0" =
      some count := by
    rw [hbound]
    exact Json.asUInt64?_ofUInt64 count
  have hanswer : serveWindow rows transport (openRequest Config.default compiled true) =
      (.ok ⟨201, windowBody rows offset count⟩, ()) := by
    rw [serveWindow, hoffset, hcount]
  have hread : Batch.read (windowBody rows offset count) =
      some ⟨window rows offset count, false, none, none, some (.ofNat rows.length)⟩ :=
    Batch.read_of_parts (by simp) rfl rfl rfl rfl (Batch.readExtra_fullCount _)
  exact ⟨(), trivial, .last hanswer (Cursor.batchOf_of_read (by decide) hread) rfl⟩

def islandRows : List Json :=
  ["Elba", "Capri", "Giglio"].map fun name => .object [("name", .string name)]

theorem pages_cover_rows_islands :
    ∃ entities visits, islandRows.mapM (decodeRow islands.schema) = .ok entities ∧
      Visits (serveWindow islandRows) islands (.ofSchema islands.schema) 2 () 0 visits () ∧
      visits.length = 2 ∧ visits.flatMap (·.page.items) = entities ∧
      Visit.Linked none visits ∧ ∀ visit ∈ visits, visit.Exact := by
  have hok : ∀ row ∈ islandRows, (decodeRow islands.schema row).isOk := by decide +kernel
  obtain ⟨entities, hentities⟩ := exists_mapM_eq_ok fun row hrow => exists_of_isOk (hok row hrow)
  obtain ⟨visits, _, _, hvisits⟩ := pages_cover_rows rfl (fun _ _ => rfl)
    (servesWindows_serveWindow islandRows) hentities (by decide)
    (show 1 ≤ (2 : UInt64).toNat by decide) (Or.inl rfl) trivial
  exact ⟨entities, visits, hentities, hvisits⟩

end Collection

end DocGraph
