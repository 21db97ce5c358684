import Relayna.Foundation.Walks
import Relayna.Studio.LogAnswers

/-!
# Log pages

A client reads page after page. A page goes on below the timestamp of its last line, so the lines
with that timestamp that were left for the next page are lost. The lines of a page are sorted by
the texts of their timestamps, which is the order of the timestamps only where the texts compare as
the numbers do. Otherwise nothing is lost.
-/
namespace Relayna.Studio.Logs

open Python Contracts Descending

namespace Builtins

variable {c : Builtins} {serviceId : String} {config : LokiLogConfig} {loki : Loki}
  {requestQuery : String} {lines : List Line} {query : StudioLogQuery c} {skip : Nat}
  {rest : List Line}

/-! ## What a client reads -/

/-- What is left after a line that was left itself. -/
theorem within_after (placed : Placed loki lines query skip rest) {last : Line} (hl : last ∈ rest) :
    loki.within (c.boundText query.fromTime) (some (toString last.timestamp)) lines =
      rest.filter fun line => line.timestamp < last.timestamp := by
  have same (stop : Option String)
      (h : last ∈ loki.within (c.boundText query.fromTime) stop lines) :
      loki.within (c.boundText query.fromTime) (some (toString last.timestamp)) lines =
        (loki.within (c.boundText query.fromTime) stop lines).filter fun line =>
          line.timestamp < last.timestamp := by
    have inside := (List.mem_filter.mp h).2
    rw [Bool.and_eq_true, decide_eq_true_eq, decide_eq_true_eq] at inside
    rw [Loki.within, Loki.within, List.filter_filter]
    refine List.filter_congr fun line _ => ?_
    have read := loki.read_timestamp last.timestamp last.timestamp_lt
    have bounded : (∀ s ∈ some (toString last.timestamp), (line.timestamp : Int) < loki.read s) ↔
        line.timestamp < last.timestamp := by
      simp only [Option.mem_some_iff, forall_eq']
      rw [read, Int.ofNat_lt]
    rw [decide_eq_decide.mpr bounded, Bool.and_comm]
    by_cases earlier : line.timestamp < last.timestamp
    · have below : ∀ s ∈ stop, (line.timestamp : Int) < loki.read s := fun s hs =>
        lt_trans (Int.ofNat_lt.mpr earlier) (inside.2 s hs)
      rw [decide_eq_true below, Bool.and_true]
    · rw [decide_eq_false earlier, Bool.false_and, Bool.false_and]
  cases placed with
  | first => exact same _ hl
  | after => exact same _ hl

variable (serviceId config) in
/-- A query that shows all that is left. -/
theorem follow_last (answers : loki.Answers requestQuery lines)
    (placed : Placed loki lines query skip rest) (fuel : Nat)
    (few : (sort byText (rest.take (query.limit + skip + 1))).length ≤ query.limit) :
    c.follow serviceId config (.ok requestQuery) loki.get (fuel + 1) query =
      some [(sort byText (rest.take (query.limit + skip + 1))).map (c.shown serviceId config)] := by
  rw [follow, queryLogs_placed answers placed, page_last few]

variable (serviceId config) in
/-- A query with more to come, and the one after it. -/
theorem follow_more (answers : loki.Answers requestQuery lines)
    (placed : Placed loki lines query skip rest) {front hidden : List Line} {last : Line}
    (split : sort byText (rest.take (query.limit + skip + 1)) = front ++ last :: hidden)
    (full : front.length + 1 = query.limit) (more : hidden ≠ []) :
    ∃ query' : StudioLogQuery c, ∃ skip', query'.limit = query.limit ∧
      Placed loki lines query' skip' (rest.filter fun line => line.timestamp < last.timestamp) ∧
      (∀ fuel, c.follow serviceId config (.ok requestQuery) loki.get (fuel + 1) query =
        (c.follow serviceId config (.ok requestQuery) loki.get fuel query').map
          ((front ++ [last]).map (c.shown serviceId config) :: ·)) ∧
      ((∀ line ∈ hidden, line.timestamp ≠ last.timestamp) → skip' = 0) := by
  obtain ⟨skip', few, shows, none_left⟩ :=
    page_more (c := c) serviceId config front last more
  have small : skip' ≤ 200 := few.trans (full.le.trans query.limit_le)
  have left : last ∈ rest := by
    have : last ∈ sort byText (rest.take (query.limit + skip + 1)) := by
      rw [split]
      exact List.mem_append_right _ List.mem_cons_self
    exact List.mem_of_mem_take (mem_sort.mp this)
  refine ⟨{ query with before := some (encodePageCursor (toString last.timestamp) skip') }, skip',
    rfl, ?_, fun fuel => ?_, none_left⟩
  · rw [← within_after placed left]
    exact .after last.timestamp_lt small rfl
  · have normal := normalize_encode (c := c) (digits_toString last.timestamp)
      (lt_of_timestamp (by omega : skip' < 2 ^ 63))
    rw [full] at shows
    rw [follow, queryLogs_placed answers placed, split, shows]
    dsimp only
    rw [normal]

/-- Only lines that are left are shown. -/
theorem follow_mem (answers : loki.Answers requestQuery lines) {fuel : Nat}
    (placed : Placed loki lines query skip rest) {pages : List (List StudioLogEntry)}
    (run : c.follow serviceId config (.ok requestQuery) loki.get fuel query = some pages) :
    ∃ seen : List Line, pages.flatten = seen.map (c.shown serviceId config) ∧
      ∀ l ∈ seen, l ∈ rest := by
  induction fuel generalizing query skip rest pages with
  | zero => cases run
  | succ fuel ih =>
    have left {l : Line} (hl : l ∈ sort byText (rest.take (query.limit + skip + 1))) : l ∈ rest :=
      List.mem_of_mem_take (mem_sort.mp hl)
    by_cases few : (sort byText (rest.take (query.limit + skip + 1))).length ≤ query.limit
    · rw [follow_last serviceId config answers placed fuel few] at run
      obtain rfl := Option.some.inj run
      exact ⟨_, by rw [List.flatten_singleton], fun l => left⟩
    · obtain ⟨front, last, hidden, split, full, more⟩ : ∃ front last hidden,
          sort byText (rest.take (query.limit + skip + 1)) = front ++ last :: hidden ∧
            front.length + 1 = query.limit ∧ hidden ≠ [] :=
        Pages.exists_split query.one_le_limit (by omega)
      obtain ⟨query', skip', -, placed', runs, -⟩ := follow_more serviceId
        config answers placed split full more
      rw [runs, Option.map_eq_some_iff] at run
      obtain ⟨pages', run', rfl⟩ := run
      obtain ⟨seen, same, inside⟩ := ih placed' run'
      refine ⟨front ++ [last] ++ seen, by rw [List.flatten_cons, same, ← List.map_append], ?_⟩
      intro l hl
      rcases List.mem_append.mp hl with hl | hl
      · refine left (split ▸ ?_)
        rcases List.mem_append.mp hl with hl | hl
        · exact List.mem_append_left _ hl
        · exact List.mem_append_right _ (List.mem_singleton.mp hl ▸ List.mem_cons_self)
      · exact (List.mem_filter.mp (inside l hl)).1

end Builtins

/-! ## When nothing is lost -/

/-- The texts of the timestamps compare as the timestamps do. -/
def TextOrder (lines : List Line) : Prop :=
  ∀ a ∈ lines, ∀ b ∈ lines, a.timestamp < b.timestamp →
    toString a.timestamp < toString b.timestamp

/-- No page ends between two lines of one timestamp. -/
def Unsplit (limit : Nat) (lines : List Line) : Prop :=
  ∀ k a b, lines[k * limit + (limit - 1)]? = some a → lines[(k + 1) * limit]? = some b →
    a.timestamp ≠ b.timestamp

variable {lines rest : List Line} {limit : Nat}

theorem byText_lt_iff {a b : Line} :
    byText a b = .lt ↔ toString a.timestamp < toString b.timestamp :=
  compareOfLessAndEq_eq_lt

theorem TextOrder.subset (h : TextOrder lines) (sub : ∀ l ∈ rest, l ∈ lines) : TextOrder rest :=
  fun a ha b hb => h a (sub a ha) b (sub b hb)

theorem TextOrder.ordered (h : TextOrder lines) (newest : Newest lines) : Ordered byText lines := by
  refine List.Pairwise.imp_of_mem (fun {a b} ha hb le => ?_) newest
  rcases le.lt_or_eq with lt | eq
  · rw [Std.OrientedCmp.gt_iff_lt.mpr (byText_lt_iff.mpr (h b hb a ha lt))]
    rfl
  · rw [byText_eq_iff.mpr eq.symm]
    rfl

theorem textOrder_of_ordered (newest : Newest lines) (ordered : Ordered byText lines) :
    TextOrder lines := by
  let Agree (a b : Line) : Prop := a.timestamp < b.timestamp → byText a b = .lt
  have backwards : lines.Pairwise (flip Agree) := by
    refine (newest.and ordered).imp fun {a b} h lt => ?_
    have ge := h.2
    have ne : byText a b ≠ .eq := fun eq => lt.ne' (byText_eq_iff.mp eq)
    refine Std.OrientedCmp.gt_iff_lt.mp ?_
    cases hc : byText a b
    · rw [hc] at ge
      cases ge
    · exact absurd hc ne
    · rfl
  have agree : ∀ a ∈ lines, ∀ b ∈ lines, Agree a b := by
    intro a ha b hb
    refine List.Pairwise.forall_of_forall_of_flip (fun a _ lt => ?_) ?_ backwards ha hb
    · exact absurd lt (lt_irrefl _)
    · exact newest.imp fun le lt => absurd le lt.not_ge
  exact fun a ha b hb lt => byText_lt_iff.mp (agree a ha b hb lt)

theorem Newest.sublist (h : Newest lines) (sub : rest.Sublist lines) : Newest rest :=
  List.Pairwise.sublist sub h

theorem unsplit_append {front tail : List Line} {last next : Line}
    (full : front.length + 1 = limit) :
    Unsplit limit (front ++ last :: next :: tail) ↔
      last.timestamp ≠ next.timestamp ∧ Unsplit limit (next :: tail) := by
  have whole : front ++ last :: next :: tail = (front ++ [last]) ++ next :: tail := by simp
  have length : (front ++ [last]).length = limit := by simpa using full
  have later (n : Nat) : (front ++ last :: next :: tail)[limit + n]? = (next :: tail)[n]? := by
    rw [whole, ← length, List.getElem?_append_right (Nat.le_add_right _ _),
      Nat.add_sub_cancel_left]
  have first : (front ++ last :: next :: tail)[limit - 1]? = some last := by
    rw [← full, Nat.add_sub_cancel, List.getElem?_append_right le_rfl, Nat.sub_self]
    rfl
  have second : (front ++ last :: next :: tail)[limit]? = some next := later 0
  constructor
  · intro h
    refine ⟨h 0 last next ?_ ?_, fun k a b ha hb => h (k + 1) a b ?_ ?_⟩
    · rw [Nat.zero_mul, Nat.zero_add, first]
    · rw [Nat.zero_add, Nat.one_mul, second]
    · rw [Nat.succ_mul, Nat.add_comm _ limit, Nat.add_assoc, later, ha]
    · rw [Nat.succ_mul, Nat.add_comm _ limit, later, hb]
  · rintro ⟨apart, h⟩ k a b ha hb
    cases k with
    | zero =>
      rw [Nat.zero_mul, Nat.zero_add, first] at ha
      rw [Nat.zero_add, Nat.one_mul, second] at hb
      rwa [← Option.some.inj ha, ← Option.some.inj hb]
    | succ k =>
      rw [Nat.succ_mul, Nat.add_comm _ limit, Nat.add_assoc, later] at ha
      rw [Nat.succ_mul, Nat.add_comm _ limit, later] at hb
      exact h k a b ha hb

theorem unsplit_of_length_le (few : lines.length ≤ limit) : Unsplit limit lines := by
  intro k a b _ hb
  have := (List.getElem?_eq_some_iff.mp hb).1
  have : limit ≤ (k + 1) * limit := Nat.le_mul_of_pos_left _ (Nat.succ_pos k)
  omega

/-- What is older than the last line of a page, if the next line is. -/
theorem filter_older {front tail : List Line} {last next : Line}
    (newest : Newest (front ++ last :: next :: tail)) (lt : next.timestamp < last.timestamp) :
    ((front ++ last :: next :: tail).filter fun l => l.timestamp < last.timestamp) =
      next :: tail := by
  obtain ⟨-, below, above⟩ := List.pairwise_append.mp newest
  obtain ⟨-, below'⟩ := List.pairwise_cons.mp below
  have early : front.filter (fun l => l.timestamp < last.timestamp) = [] := by
    refine List.filter_eq_nil_iff.mpr fun l hl => ?_
    have := above l hl last List.mem_cons_self
    simpa using this
  have late : (next :: tail).filter (fun l => l.timestamp < last.timestamp) = next :: tail := by
    refine List.filter_eq_self.mpr fun l hl => decide_eq_true ?_
    rcases List.mem_cons.mp hl with rfl | hl
    · exact lt
    · exact (List.rel_of_pairwise_cons below' hl).trans_lt lt
  rw [List.filter_append, early, List.filter_cons_of_neg (by simp), late, List.nil_append]

theorem textOrder_join {front tail : List Line} {last next : Line}
    (newest : Newest (front ++ last :: next :: tail)) (lt : next.timestamp < last.timestamp)
    (shownOrder : TextOrder (front ++ [last, next])) (rest : TextOrder (next :: tail)) :
    TextOrder (front ++ last :: next :: tail) := by
  obtain ⟨-, below, above⟩ := List.pairwise_append.mp newest
  obtain ⟨-, below'⟩ := List.pairwise_cons.mp below
  have older {l : Line} (hl : l ∈ next :: tail) : l.timestamp ≤ next.timestamp := by
    rcases List.mem_cons.mp hl with rfl | hl
    · exact le_rfl
    · exact List.rel_of_pairwise_cons below' hl
  have newer {l : Line} (hl : l ∈ front ++ [last]) : last.timestamp ≤ l.timestamp := by
    rcases List.mem_append.mp hl with hl | hl
    · exact above l hl last List.mem_cons_self
    · rw [List.mem_singleton.mp hl]
  have split {l : Line} (hl : l ∈ front ++ last :: next :: tail) :
      l ∈ front ++ [last] ∨ l ∈ next :: tail := by
    rwa [List.append_cons, List.mem_append] at hl
  have page {l : Line} (hl : l ∈ front ++ [last]) : l ∈ front ++ [last, next] := by
    rcases List.mem_append.mp hl with hl | hl
    · exact List.mem_append_left _ hl
    · exact List.mem_append_right _ (by simp [List.mem_singleton.mp hl])
  intro a ha b hb early
  rcases split ha with ha | ha <;> rcases split hb with hb | hb
  · exact shownOrder a (page ha) b (page hb) early
  · exact absurd early (not_lt.mpr ((older hb).trans (lt.le.trans (newer ha))))
  · have step := shownOrder next (by simp) b (page hb) (lt.trans_le (newer hb))
    rcases (older ha).lt_or_eq with before | same
    · exact (rest a ha next List.mem_cons_self before).trans step
    · rwa [same]
  · exact rest a ha b hb early

namespace Builtins

variable {c : Builtins} {serviceId : String} {config : LokiLogConfig} {loki : Loki}
  {requestQuery : String} {query : StudioLogQuery c} {skip : Nat}

/-- The client comes to an end with the lines, each once and newest first. -/
def Lossless (c : Builtins) (serviceId : String) (config : LokiLogConfig) (requestQuery : String)
    (loki : Loki) (query : StudioLogQuery c) (rest : List Line) : Prop :=
  ∃ fuel pages order,
    c.follow serviceId config (.ok requestQuery) loki.get fuel query = some pages ∧
      pages.flatten = order.map (c.shown serviceId config) ∧ order.Perm rest ∧ Newest order

theorem Placed.newest (placed : Placed loki lines query skip rest) (newest : Newest lines) :
    Newest rest := by
  cases placed <;> exact newest.sublist List.filter_sublist

variable (serviceId config) in
theorem lossless_of_few (answers : loki.Answers requestQuery lines)
    (placed : Placed loki lines query 0 rest) (few : rest.length ≤ query.limit) :
    c.Lossless serviceId config requestQuery loki query rest ↔ TextOrder rest := by
  have newest := placed.newest answers.newest
  have all : rest.take (query.limit + 0 + 1) = rest := List.take_of_length_le (by omega)
  have length : (sort byText rest).length = rest.length := (sort_perm byText rest).length_eq
  have shows (fuel : Nat) := follow_last serviceId config answers placed
    fuel (by rwa [all, length])
  rw [all] at shows
  constructor
  · rintro ⟨fuel, pages, order, run, same, -, sorted⟩
    cases fuel with
    | zero => cases run
    | succ fuel =>
      rw [shows] at run
      obtain rfl := Option.some.inj run
      rw [List.flatten_singleton] at same
      obtain rfl := (List.map_injective_iff.mpr (c.shown_injective serviceId config)) same
      exact (textOrder_of_ordered sorted (ordered_sort byText rest)).subset fun l => mem_sort.mpr
  · intro texts
    refine ⟨1, _, sort byText rest, shows 0, List.flatten_singleton, sort_perm byText rest, ?_⟩
    rwa [(texts.ordered newest).sort_eq]

variable (serviceId config) in
/-- A page that leaves lines, where the lines read next are what remains of the others. -/
theorem lossless_of_more (answers : loki.Answers requestQuery lines) {front tail : List Line}
    {last next : Line} (placed : Placed loki lines query 0 (front ++ last :: next :: tail))
    (full : front.length + 1 = query.limit) (texts : TextOrder (front ++ [last, next]))
    (lt : next.timestamp < last.timestamp) :
    ∃ query' : StudioLogQuery c, query'.limit = query.limit ∧
      Placed loki lines query' 0 (next :: tail) ∧
      ∀ fuel, c.follow serviceId config (.ok requestQuery) loki.get (fuel + 1) query =
        (c.follow serviceId config (.ok requestQuery) loki.get fuel query').map
          ((front ++ [last]).map (c.shown serviceId config) :: ·) := by
  have newest := placed.newest answers.newest
  have page :
      (front ++ last :: next :: tail).take (query.limit + 0 + 1) = front ++ [last, next] := by
    have whole : front ++ last :: next :: tail = (front ++ [last, next]) ++ tail := by simp
    have length : query.limit + 0 + 1 = (front ++ [last, next]).length := by simp; omega
    rw [whole, length, List.take_left]
  have sorted : Newest (front ++ [last, next]) := newest.sublist (page ▸ List.take_sublist _ _)
  have split : sort byText ((front ++ last :: next :: tail).take (query.limit + 0 + 1)) =
      front ++ last :: [next] := by
    rw [page, (texts.ordered sorted).sort_eq]
  obtain ⟨query', skip', limit, placed', runs, none_left⟩ :=
    follow_more serviceId config answers placed split full (by simp)
  obtain rfl := none_left fun line hl => by
    rw [List.mem_singleton.mp hl]
    exact lt.ne
  rw [filter_older newest lt] at placed'
  exact ⟨query', limit, placed', runs⟩

/-- What is shown after the first page. -/
theorem Lossless.next (answers : loki.Answers requestQuery lines) {query' : StudioLogQuery c}
    {skip' : Nat} {rest' page : List Line}
    (lossless : c.Lossless serviceId config requestQuery loki query rest)
    (placed' : Placed loki lines query' skip' rest')
    (runs : ∀ fuel, c.follow serviceId config (.ok requestQuery) loki.get (fuel + 1) query =
      (c.follow serviceId config (.ok requestQuery) loki.get fuel query').map
        (page.map (c.shown serviceId config) :: ·)) :
    ∃ fuel pages seen,
      c.follow serviceId config (.ok requestQuery) loki.get fuel query' = some pages ∧
        pages.flatten = seen.map (c.shown serviceId config) ∧ (page ++ seen).Perm rest ∧
          Newest (page ++ seen) ∧ ∀ l ∈ seen, l ∈ rest' := by
  obtain ⟨fuel, pages, order, run, same, perm, sorted⟩ := lossless
  cases fuel with
  | zero => cases run
  | succ fuel =>
    rw [runs, Option.map_eq_some_iff] at run
    obtain ⟨pages', run', rfl⟩ := run
    obtain ⟨seen, same', inside⟩ := follow_mem answers placed' run'
    obtain rfl : order = page ++ seen := by
      rw [List.flatten_cons, same', ← List.map_append] at same
      exact ((List.map_injective_iff.mpr (c.shown_injective serviceId config)) same).symm
    exact ⟨fuel, pages', seen, run', same', perm, sorted, inside⟩

/-- The line that a page leaves is shown later, so it is older than the page. -/
theorem Lossless.page (answers : loki.Answers requestQuery lines)
    (lossless : c.Lossless serviceId config requestQuery loki query rest)
    (placed : Placed loki lines query 0 rest) (more : query.limit < rest.length) :
    ∃ front last left, sort byText (rest.take (query.limit + 1)) = front ++ [last, left] ∧
      Newest (front ++ [last, left]) ∧ left.timestamp < last.timestamp := by
  have length : (sort byText (rest.take (query.limit + 0 + 1))).length = query.limit + 1 := by
    rw [(sort_perm _ _).length_eq, List.length_take]
    omega
  obtain ⟨front, last, hidden, split, full, some_hidden⟩ :=
    Pages.exists_split query.one_le_limit (by omega : query.limit <
      (sort byText (rest.take (query.limit + 0 + 1))).length)
  obtain ⟨left, rfl⟩ : ∃ left, hidden = [left] := by
    rw [← List.length_eq_one_iff]
    rw [split, List.length_append, List.length_cons] at length
    omega
  obtain ⟨query', skip', -, placed', runs, -⟩ :=
    follow_more serviceId config answers placed split full some_hidden
  obtain ⟨-, -, seen, -, -, perm, sorted, inside⟩ := lossless.next answers placed' runs
  -- The page and the line that it leaves are the first lines of what is left.
  have cut : (front ++ [last] ++ [left] ++ rest.drop (query.limit + 0 + 1)).Perm rest := by
    have first : (front ++ [last] ++ [left]).Perm (rest.take (query.limit + 0 + 1)) := by
      rw [List.append_assoc, List.singleton_append, ← split]
      exact sort_perm _ _
    exact (first.append_right _).trans (by rw [List.take_append_drop])
  have others : ([left] ++ rest.drop (query.limit + 0 + 1)).Perm seen := by
    rw [List.append_assoc (front ++ [last])] at cut
    exact (List.perm_append_left_iff _).mp (cut.trans perm.symm)
  have later : left ∈ seen := others.subset (by simp)
  refine ⟨front, last, left, split, ?_, of_decide_eq_true (List.mem_filter.mp (inside _ later)).2⟩
  rw [List.append_cons]
  refine sorted.sublist ((List.Sublist.refl _).append ?_)
  exact List.singleton_sublist.mpr later

variable (serviceId config) in
theorem lossless_iff (answers : loki.Answers requestQuery lines)
    (placed : Placed loki lines query 0 rest) :
    c.Lossless serviceId config requestQuery loki query rest ↔
      TextOrder rest ∧ Unsplit query.limit rest := by
  induction hn : rest.length using Nat.strong_induction_on generalizing query rest with
  | _ n ih =>
  subst hn
  have newest := placed.newest answers.newest
  by_cases few : rest.length ≤ query.limit
  · rw [lossless_of_few serviceId config answers placed few]
    exact (and_iff_left (unsplit_of_length_le few)).symm
  · rw [not_le] at few
    obtain ⟨front, last, hidden, rfl, full, some_hidden⟩ :=
      Pages.exists_split query.one_le_limit few
    obtain ⟨next, tail, rfl⟩ := List.exists_cons_of_ne_nil some_hidden
    have page : (front ++ last :: next :: tail).take (query.limit + 1) = front ++ [last, next] := by
      have whole : front ++ last :: next :: tail = (front ++ [last, next]) ++ tail := by simp
      have length : query.limit + 1 = (front ++ [last, next]).length := by simp; omega
      rw [whole, length, List.take_left]
    have shorter : (next :: tail).length < (front ++ last :: next :: tail).length := by
      simp
      omega
    have sub : ∀ l ∈ next :: tail, l ∈ front ++ last :: next :: tail := fun l hl =>
      List.mem_append_right _ (List.mem_cons_of_mem _ hl)
    constructor
    · intro lossless
      obtain ⟨front', last', left, sorted, newest', older⟩ := lossless.page answers placed few
      rw [page] at sorted
      have texts : TextOrder (front ++ [last, next]) := by
        refine (textOrder_of_ordered ?_ (ordered_sort byText _)).subset fun l => mem_sort.mpr
        rwa [sorted]
      have lt : next.timestamp < last.timestamp := by
        have first : Newest (front ++ [last, next]) :=
          newest.sublist (page ▸ List.take_sublist _ _)
        rw [(texts.ordered first).sort_eq] at sorted
        obtain ⟨-, same⟩ := List.append_inj' sorted rfl
        obtain ⟨rfl, rfl⟩ : last = last' ∧ next = left := by simpa using same
        exact older
      obtain ⟨query', limit, placed', runs⟩ :=
        lossless_of_more serviceId config answers placed full texts lt
      obtain ⟨fuel, pages, seen, run, same, perm, sorted, -⟩ := lossless.next answers placed' runs
      have remaining : c.Lossless serviceId config requestQuery loki query' (next :: tail) := by
        refine ⟨fuel, pages, seen, run, same, ?_, sorted.sublist (List.sublist_append_right _ _)⟩
        rw [List.append_cons front last (next :: tail)] at perm
        exact (List.perm_append_left_iff _).mp perm
      obtain ⟨texts', unsplit⟩ := (ih _ shorter placed' rfl).mp remaining
      rw [limit] at unsplit
      exact ⟨textOrder_join newest lt texts texts', (unsplit_append full).mpr ⟨lt.ne', unsplit⟩⟩
    · rintro ⟨texts, unsplit⟩
      obtain ⟨apart, unsplit⟩ := (unsplit_append full).mp unsplit
      have lt : next.timestamp < last.timestamp := by
        have := List.pairwise_append.mp newest
        exact lt_of_le_of_ne (List.rel_of_pairwise_cons this.2.1 List.mem_cons_self) apart.symm
      obtain ⟨query', limit, placed', runs⟩ := lossless_of_more serviceId
        config answers placed full
        (texts.subset fun l hl => List.mem_of_mem_take (page ▸ hl)) lt
      obtain ⟨fuel, pages, order, run, same, perm, ordered⟩ := (ih _ shorter placed' rfl).mpr
        ⟨texts.subset sub, limit ▸ unsplit⟩
      refine ⟨fuel + 1, _, front ++ [last] ++ order, by rw [runs, run]; rfl, ?_, ?_, ?_⟩
      · rw [List.flatten_cons, same, ← List.map_append]
      · rw [List.append_cons front last (next :: tail)]
        exact perm.append_left _
      · rw [List.append_cons front last] at newest
        have parts := List.pairwise_append.mp newest
        refine List.pairwise_append.mpr ⟨parts.1, ordered, fun a ha b hb => ?_⟩
        exact parts.2.2 a ha b (perm.subset hb)

end Builtins

structure LogPaging (c : Builtins) (serviceId : String) (config : LokiLogConfig)
    (requestQuery : String) (loki : Loki) (query : StudioLogQuery c) (matching : List Line) :
    Prop where
  lossless : c.Lossless serviceId config requestQuery loki query matching
  /-- `int` refuses longer texts. -/
  cursors : ∀ cursor skip, c.digits cursor = true → skip < 10 ^ 4300 →
    c.parsePageCursor (encodePageCursor cursor skip) = .ok (cursor, skip)
  /-- A position that was read, from a time as well, is read from its text. -/
  positions : ∀ value cursor skip, c.parsePageCursor value = .ok (cursor, skip) →
    c.parsePageCursor (encodePageCursor cursor skip) = .ok (cursor, skip)

/-- The pages lose nothing if none of them ends within a timestamp. -/
theorem log_pages_lossless_iff (c : Builtins) (serviceId : String) (config : LokiLogConfig)
    (requestQuery : String) (loki : Loki) (lines : List Line)
    (answers : loki.Answers requestQuery lines) (query : StudioLogQuery c)
    (first : query.before = none) :
    LogPaging c serviceId config requestQuery loki query
        (loki.within (c.boundText query.fromTime) (c.boundText query.toTime) lines) ↔
      TextOrder (loki.within (c.boundText query.fromTime) (c.boundText query.toTime) lines) ∧
        Unsplit query.limit
          (loki.within (c.boundText query.fromTime) (c.boundText query.toTime) lines) := by
  rw [← Builtins.lossless_iff serviceId config answers (.first first)]
  refine ⟨fun h => h.lossless, fun lossless => ⟨lossless, fun cursor skip number small => ?_,
    fun value cursor skip read => Builtins.parse_encode_of_parse read⟩⟩
  exact Builtins.parse_encode number small

/-! ## A Loki -/

def readBound (text : String) : Int := (intOfString text).getD 0

theorem readBound_timestamp (n : Nat) (small : n < 2 ^ 63) : readBound (toString n) = n := by
  rw [readBound, Names.intOfString_toString (Builtins.lt_of_timestamp small), Option.getD_some]

def silentLoki : Loki where
  get _ := .failed
  read := readBound
  read_timestamp := readBound_timestamp

def payloadWith (streams : List Stream) : Value :=
  .dict [("status", .str "success"),
    ("data", .dict [("resultType", .str "streams"), ("result", .list (streams.map Stream.value))])]

/-- Every line is a stream. -/
def lokiWith (lines : List Line) : Loki where
  get request := .answered 200 (some (payloadWith
    (((silentLoki.within request.start request.stop lines).take request.limit).map fun line =>
      { labels := line.labels, values := [line.toSample] })))
  read := readBound
  read_timestamp := readBound_timestamp

theorem lokiWith_answers {lines : List Line} (newest : Newest lines) (requestQuery : String) :
    (lokiWith lines).Answers requestQuery lines where
  newest := newest
  reply request _ := by
    refine ⟨_, _, rfl, ⟨rfl, _, rfl, rfl, rfl⟩, fun t => ?_⟩
    have single : (Stream.lines ∘ fun line : Line => ⟨line.labels, [line.toSample]⟩) = ([·]) := rfl
    rw [List.flatMap_map, ← Function.comp_def, single, List.flatMap_singleton']
    rfl

theorem isDigit_plain (ch : Char) (h : ch.isDigit = true) : isSpace ch = false ∧ ch ≠ ':' := by
  have range : 48 ≤ ch.toNat ∧ ch.toNat ≤ 57 := by
    simpa [Char.isDigit, UInt32.le_iff_toNat_le] using h
  refine ⟨?_, ?_⟩
  · simp [isSpace, asciiSpace, unicodeSpace]
    omega
  · rintro rfl
    exact absurd h (by decide)

theorem isoUtc_absent (_value iso : String) (h : (none : Option String) = some iso) :
    (none : Option String) = some iso ∧ strip iso = iso ∧ ':' ∈ iso.toList ∧
      iso.toList.head?.any Char.isDigit = true := by cases h

theorem isoNs_absent (_value iso : String) (h : (none : Option String) = some iso) :
    (none : Option String).isSome := by cases h

def secondText (seconds : Nat) : String :=
  if seconds = 1712797201 then "2024-04-11T01:00:01Z" else "2024-04-11T01:00:00Z"

theorem utcIso_known (seconds _micros : Nat) (_ : seconds ≤ 253402300799) :
    (some (secondText seconds)).isSome := rfl

/-- The times of two seconds. -/
def sampleBuiltins : Builtins where
  text := plainText
  isdigit := Char.isDigit
  isdigit_of_isDigit _ h := h
  isdigit_plain := isDigit_plain
  isoUtc _ := none
  isoUtc_isoUtc := isoUtc_absent
  isoNs _ := none
  isoNs_isoUtc := isoNs_absent
  utcIso seconds _ := some (secondText seconds)
  utcIso_isSome := utcIso_known

theorem no_bound (t : String) (h : t ∈ (none : Option String)) :
    ∃ value, sampleBuiltins.parseCursorTimestamp value = .ok t := by cases h

theorem one_le_limit : 1 ≤ 1 := by decide

theorem one_le_200 : 1 ≤ 200 := by decide

def sampleQuery : StudioLogQuery sampleBuiltins where
  limit := 1
  fromTime_normal := no_bound
  toTime_normal := no_bound
  one_le_limit := one_le_limit
  limit_le := one_le_200

theorem timestamp_small (timestamp : Fin (2 ^ 63)) : timestamp.val < 2 ^ 63 := timestamp.isLt

def lineAt (timestamp : Fin (2 ^ 63)) (message : String) : Line where
  timestamp := timestamp
  message := message
  timestamp_lt := timestamp_small timestamp
  labels := [("app", "payments")]

def sampleLines : List Line :=
  [lineAt 1712797201000000000 "second", lineAt 1712797200000000000 "first"]

/-- Two lines of one timestamp. -/
def twinLines : List Line :=
  [lineAt 1712797201000000000 "second", lineAt 1712797201000000000 "first"]

theorem sample_newest : Newest sampleLines ∧ Newest twinLines := by
  simp [Newest, sampleLines, twinLines, lineAt]

def sampleSelector : String := "\x7bapp=\"payments\"\x7d"

theorem within_unbounded (loki : Loki) (lines : List Line) : loki.within none none lines = lines :=
  List.filter_eq_self.mpr fun line _ => by simp

theorem sample_log_pages :
    LogPaging sampleBuiltins "payments" {} sampleSelector (lokiWith sampleLines) sampleQuery
      ((lokiWith sampleLines).within none none sampleLines) := by
  have whole : (lokiWith sampleLines).within (sampleBuiltins.boundText sampleQuery.fromTime)
      (sampleBuiltins.boundText sampleQuery.toTime) sampleLines = sampleLines :=
    within_unbounded _ _
  refine (log_pages_lossless_iff sampleBuiltins "payments" {} sampleSelector (lokiWith sampleLines)
    sampleLines (lokiWith_answers sample_newest.1 _) sampleQuery rfl).mpr ⟨?_, ?_⟩
  · rw [whole]
    unfold TextOrder sampleLines
    decide +kernel
  · rw [whole]
    intro k a b ha hb
    have one : k = 0 := by
      have := (List.getElem?_eq_some_iff.mp hb).1
      simp [sampleLines, sampleQuery] at this
      omega
    subst one
    rw [← Option.some.inj ha, ← Option.some.inj hb]
    decide

/-- The second of the lines is left for the next page, which begins below its timestamp. -/
theorem twin_lines_lost : (lokiWith twinLines).Answers sampleSelector twinLines ∧
    ¬LogPaging sampleBuiltins "payments" {} sampleSelector (lokiWith twinLines) sampleQuery
      ((lokiWith twinLines).within none none twinLines) := by
  have answers := lokiWith_answers sample_newest.2 sampleSelector
  refine ⟨answers, fun h => ?_⟩
  rw [within_unbounded] at h
  have placed : Builtins.Placed (lokiWith twinLines) twinLines sampleQuery 0 twinLines := by
    have whole : (lokiWith twinLines).within (sampleBuiltins.boundText sampleQuery.fromTime)
        (sampleBuiltins.boundText sampleQuery.toTime) twinLines = twinLines := within_unbounded _ _
    rw [← whole]
    exact .first rfl
  have unsplit := ((Builtins.lossless_iff _ _ answers placed).mp h.lossless).2
  exact unsplit 0 _ _ rfl rfl rfl

end Relayna.Studio.Logs
