import Relayna.Foundation.Pages

/-!
# Lists that are read in chunks

A reader loads a chunk of keys at an offset, then what is stored under them, and takes the entries
in order until it has enough; it goes on behind the chunk as long as chunks come back full. On a
list that stays the same this is one pass over everything from the offset on (`read_eq`).

When the list grows between two chunks, the keys above the offset move down and are read again.
`Held` is what the reader has gathered for a page: the gathered keys stand in the list in their
order, and no wanted key between two of them is left out. A chunk keeps it when the gathered keys
still stand above the offset, or when nothing but the key that tells a next page is missing.
-/
namespace Chunks

open Pages

section Fold

variable {α σ : Type*} (step : α → σ → σ) (full : σ → Bool)

/-- Take the elements in order until the state is full. -/
def foldUntil : List α → σ → σ
  | [], s => s
  | a :: l, s => if full (step a s) then step a s else foldUntil l (step a s)

variable {step full} {l k : List α} {s : σ}

theorem foldUntil_append (unfilled : full s = false) : foldUntil step full (l ++ k) s =
    if full (foldUntil step full l s) then foldUntil step full l s
    else foldUntil step full k (foldUntil step full l s) := by
  induction l generalizing s with
  | nil => simp [foldUntil, unfilled]
  | cons a l ih =>
    rw [List.cons_append, foldUntil, foldUntil]
    by_cases h : full (step a s) = true
    · simp [h]
    · rw [if_neg h, if_neg h]
      exact ih (by simpa using h)

end Fold

section Read

variable {κ ρ σ : Type*}

/-- What is done with an entry, when that is enough and how many keys a chunk has. -/
structure Reader (κ ρ σ : Type*) where
  step : κ × Option ρ → σ → σ
  full : σ → Bool
  chunk : Nat
  chunk_pos : 0 < chunk

/-- What the reader does next. -/
inductive Reading (κ σ : Type*) where
  | keys (offset : Nat) (state : σ)
  | entries (offset : Nat) (keys : List κ) (state : σ)
  | done (state : σ)

namespace Reader

variable (r : Reader κ ρ σ)

def chunkAt (l : List κ) (offset : Nat) : List κ := (l.drop offset).take r.chunk

/-- Go through the entries of a chunk. -/
def take (load : κ → Option ρ) (keys : List κ) (s : σ) : σ :=
  foldUntil r.step r.full (keys.map fun k => (k, load k)) s

/-- One round trip. -/
def next (l : List κ) (load : κ → Option ρ) : Reading κ σ → Option (Reading κ σ)
  | .keys offset s =>
    some (if (r.chunkAt l offset).isEmpty then .done s
      else .entries offset (r.chunkAt l offset) s)
  | .entries offset keys s =>
    some (if r.full (r.take load keys s) || keys.length < r.chunk then .done (r.take load keys s)
      else .keys (offset + keys.length) (r.take load keys s))
  | .done _ => none

/-- All round trips from an offset on, while nobody else writes. -/
def read (l : List κ) (load : κ → Option ρ) (offset : Nat) (s : σ) : σ :=
  if (r.chunkAt l offset).isEmpty then s
  else
    let t := r.take load (r.chunkAt l offset) s
    if r.full t || (r.chunkAt l offset).length < r.chunk then t
    else read l load (offset + (r.chunkAt l offset).length) t
termination_by l.length - offset
decreasing_by
  rename_i present _
  have positive := List.length_pos_iff.mpr (by simpa using present)
  simp only [chunkAt, List.length_take, List.length_drop] at positive ⊢
  omega

variable {r} {l : List κ} {load : κ → Option ρ} {offset : Nat} {s : σ}

theorem drop_eq_chunkAt (l : List κ) (offset : Nat) :
    l.drop offset = r.chunkAt l offset ++ l.drop (offset + (r.chunkAt l offset).length) := by
  have length : (r.chunkAt l offset).length = min r.chunk (l.length - offset) := by
    simp [chunkAt]
  rw [← List.drop_drop]
  conv_lhs => rw [← List.take_append_drop (r.chunkAt l offset).length (l.drop offset)]
  congr 1
  rw [length, chunkAt]
  by_cases h : r.chunk ≤ l.length - offset
  · rw [Nat.min_eq_left h]
  · rw [Nat.min_eq_right (by omega), List.take_of_length_le (by simp),
      List.take_of_length_le (by simp; omega)]

/-- A short chunk is the last one. -/
theorem drop_of_short (short : (r.chunkAt l offset).length < r.chunk) :
    r.chunkAt l offset = l.drop offset := by
  rw [chunkAt, List.take_of_length_le]
  simp only [chunkAt, List.length_take, List.length_drop] at short
  simp only [List.length_drop]
  omega

theorem drop_of_empty (empty : r.chunkAt l offset = []) : l.drop offset = [] := by
  rw [← drop_of_short (by rw [empty]; exact r.chunk_pos), empty]

/-- The chunks follow each other: reading is one pass. -/
theorem read_eq (unfilled : r.full s = false) :
    r.read l load offset s = r.take load (l.drop offset) s := by
  fun_induction r.read l load offset s with
  | case1 offset s nothing =>
    rw [drop_of_empty (by simpa using nothing)]
    rfl
  | case2 offset s present t enough =>
    rw [Bool.or_eq_true, decide_eq_true_eq] at enough
    rw [drop_eq_chunkAt (r := r), take, List.map_append, foldUntil_append unfilled]
    split
    · rfl
    · next unfilled =>
      have short := drop_of_short (enough.resolve_left unfilled)
      have rest : l.drop (offset + (r.chunkAt l offset).length) = [] := by
        rw [short, List.drop_eq_nil_iff, List.length_drop]
        omega
      rw [rest]
      rfl
  | case3 offset s present t enough ih =>
    rw [Bool.or_eq_true, decide_eq_true_eq, not_or] at enough
    rw [ih (by simpa using enough.1), drop_eq_chunkAt (r := r) l offset, take, take,
      List.map_append, foldUntil_append unfilled]
    exact (if_neg enough.1).symm

/-- The round trips come to what `read` says. -/
theorem next_read (l : List κ) (load : κ → Option ρ) (offset : Nat) (s : σ) :
    ∃ n, (fun t => t.bind (r.next l load))^[n] (some (.keys offset s)) =
      some (.done (r.read l load offset s)) := by
  fun_induction r.read l load offset s with
  | case1 offset s nothing => exact ⟨1, by simp [next, nothing]⟩
  | case2 offset s present t enough =>
    exact ⟨2, by simp only [Function.iterate_succ, Function.iterate_zero, Function.comp_apply, id,
      Option.bind_some, next, if_neg present]; rw [if_pos enough]⟩
  | case3 offset s present t enough ih =>
    obtain ⟨n, hn⟩ := ih
    refine ⟨n + 2, ?_⟩
    rw [← hn, Function.iterate_add_apply]
    congr 1
    simp only [Function.iterate_succ, Function.iterate_zero, Function.comp_apply, id,
      Option.bind_some, next, if_neg present]
    rw [if_neg enough]

end Reader

end Read

section Grow

variable {κ : Type*} {wanted : κ → Prop} {l l' got : List κ} {offset size : Nat}

theorem before_total {a b : κ} (ha : a ∈ l) (hb : b ∈ l) (ne : a ≠ b) :
    Before l a b ∨ Before l b a := by
  induction l with
  | nil => cases ha
  | cons x l ih =>
    rw [before_cons, before_cons]
    rcases List.mem_cons.mp ha with rfl | ha
    · exact .inl (.inl ⟨rfl, (List.mem_cons.mp hb).resolve_left (Ne.symm ne)⟩)
    · rcases List.mem_cons.mp hb with same | hb
      · exact .inr (.inl ⟨same, ha⟩)
      · exact (ih ha hb).imp .inr .inr

/-- What has been there all the time keeps its order. -/
theorem before_of_sublist {a b : κ} (sub : l.Sublist l') (nodup : l'.Nodup) (ha : a ∈ l)
    (hb : b ∈ l) (h : Before l' a b) : Before l a b := by
  have ne : a ≠ b := by
    rintro rfl
    exact not_before_self nodup h
  rcases before_total ha hb ne with h' | h'
  · exact h'
  · exact absurd (h'.sublist sub) (h.asymm nodup)

/-- What has been there all the time only moves down. -/
theorem mem_take_of_sublist {a : κ} (sub : l.Sublist l') (nodup : l'.Nodup) (ha : a ∈ l)
    (h : a ∈ l'.take offset) : a ∈ l.take offset := by
  induction sub generalizing offset with
  | slnil => cases ha
  | cons x sub ih =>
    obtain ⟨fresh, nodup⟩ := List.nodup_cons.mp nodup
    cases offset with
    | zero => simp at h
    | succ offset =>
      rw [List.take_succ_cons, List.mem_cons] at h
      rcases h with rfl | h
      · exact absurd (sub.subset ha) fresh
      · exact (List.take_sublist_take_left (Nat.le_succ offset)).subset (ih nodup ha h)
  | cons_cons x sub ih =>
    cases offset with
    | zero => simp at h
    | succ offset =>
      rw [List.take_succ_cons, List.mem_cons] at h ⊢
      rcases List.mem_cons.mp ha with rfl | ha
      · exact .inl rfl
      · exact h.imp_right (ih (List.nodup_cons.mp nodup).2 ha)

/-- The gathered keys stand in the list in this order, and every wanted key between two of them is
gathered. -/
structure Gathered (wanted : κ → Prop) (l got : List κ) : Prop where
  sub : got.Sublist l
  between : ∀ x, wanted x → ∀ u ∈ got, ∀ v ∈ got, Before l u x → Before l x v → x ∈ got

/-- Every wanted key above the offset and below a gathered one is gathered as well. -/
structure Reached (wanted : κ → Prop) (l : List κ) (offset : Nat) (got : List κ) : Prop
    extends Gathered wanted l got where
  above : ∀ x, wanted x → x ∈ l.take offset → ∀ u ∈ got, Before l u x → x ∈ got

theorem Gathered.nil : Gathered wanted l [] := ⟨List.nil_sublist l, nofun⟩

theorem Reached.nil : Reached wanted l offset [] := ⟨.nil, nofun⟩

theorem Gathered.grow (h : Gathered wanted l got) (known : ∀ x, wanted x → x ∈ l)
    (sub : l.Sublist l') (nodup : l'.Nodup) : Gathered wanted l' got := by
  refine ⟨h.sub.trans sub, fun x hx u hu v hv hux hxv => ?_⟩
  have mem := h.sub.subset
  exact h.between x hx u hu v hv (before_of_sublist sub nodup (mem hu) (known x hx) hux)
    (before_of_sublist sub nodup (known x hx) (mem hv) hxv)

theorem Reached.grow (h : Reached wanted l offset got) (known : ∀ x, wanted x → x ∈ l)
    (sub : l.Sublist l') (nodup : l'.Nodup) : Reached wanted l' offset got :=
  ⟨h.toGathered.grow known sub nodup, fun x hx hxo u hu hux =>
    h.above x hx (mem_take_of_sublist sub nodup (known x hx) hxo) u hu
      (before_of_sublist sub nodup (h.sub.subset hu) (known x hx) hux)⟩

theorem Gathered.take (h : Gathered wanted l got) (nodup : l.Nodup) (n : Nat) :
    Gathered wanted l (got.take n) := by
  refine ⟨(List.take_sublist n got).trans h.sub, fun x hx u hu v hv hux hxv => ?_⟩
  have mem : got.take n ⊆ got := (List.take_sublist n got).subset
  have here := h.between x hx u (mem hu) v (mem hv) hux hxv
  have order := before_of_sublist h.sub nodup here (mem hv) hxv
  have distinct := h.sub.nodup nodup
  rw [← List.take_append_drop n got] at order distinct
  exact (order.of_append distinct hv).mem_left

/-- Of a chunk the start is passed over while nothing is gathered, `post` is not looked at any more,
and what is wanted in between is gathered. -/
structure Scanned (wanted : κ → Prop) (got chunk more post : List κ) : Prop where
  split : ∃ pre part, chunk = pre ++ part ++ post ∧ (pre ≠ [] → got = []) ∧ more.Sublist part ∧
    ∀ x ∈ part, wanted x → x ∈ more

theorem Scanned.sub {chunk more post : List κ} (h : Scanned wanted got chunk more post) :
    more.Sublist chunk := by
  obtain ⟨pre, part, rfl, -, sub, -⟩ := h.split
  exact (sub.trans (List.sublist_append_right pre part)).trans (List.sublist_append_left _ post)

/-- The keys of a chunk stand below those above the offset. -/
theorem take_append_sublist {chunk rest : List κ} (here : l.drop offset = chunk ++ rest) :
    (l.take offset ++ chunk).Sublist l := by
  conv_rhs => rw [← List.take_append_drop offset l, here]
  exact (List.sublist_append_left chunk rest).append_left _

theorem not_mem_chunk {chunk rest : List κ} (here : l.drop offset = chunk ++ rest)
    (nodup : l.Nodup) {x : κ} (hx : x ∈ l.take offset) : x ∉ chunk := by
  intro hc
  rw [← List.take_append_drop offset l, here, List.nodup_append] at nodup
  exact nodup.2.2 x hx x (List.mem_append_left rest hc) rfl

theorem take_add_chunk {chunk rest : List κ} (here : l.drop offset = chunk ++ rest) {x : κ}
    (hx : x ∈ l.take (offset + chunk.length)) : x ∈ l.take offset ∨ x ∈ chunk := by
  rw [List.take_add, here, List.take_left'] at hx
  · exact List.mem_append.mp hx
  · rfl

/-- What stands before a key above the offset stands there too. -/
theorem before_take {u x : κ} (nodup : l.Nodup) (h : Before l u x) (hx : x ∈ l.take offset) :
    u ∈ l.take offset := by
  rw [← List.take_append_drop offset l] at h nodup
  exact (h.of_append nodup hx).mem_left

/-- A key before one of a chunk stands above the offset or in the chunk. -/
theorem before_chunk {chunk rest : List κ} {x v : κ} (here : l.drop offset = chunk ++ rest)
    (nodup : l.Nodup) (hv : v ∈ chunk) (h : Before l x v) :
    x ∈ l.take offset ∨ Before chunk x v := by
  by_cases hx : x ∈ l.take offset
  · exact .inl hx
  · refine .inr ?_
    have all : l.take offset ++ (chunk ++ rest) = l := by
      rw [← here, List.take_append_drop]
    rw [← all] at h nodup
    have mem := h.mem_left
    have behind := (List.mem_append.mp mem).resolve_left hx
    have sub : (chunk ++ rest).Sublist (l.take offset ++ (chunk ++ rest)) :=
      List.sublist_append_right _ _
    have order := before_of_sublist sub nodup behind (List.mem_append_left rest hv) h
    exact order.of_append (sub.nodup nodup) hv

theorem sublist_take (sub : got.Sublist l) (nodup : l.Nodup)
    (standing : ∀ u ∈ got, u ∈ l.take offset) : got.Sublist (l.take offset) := by
  rw [← List.take_append_drop offset l] at sub nodup
  obtain ⟨first, last, rfl, hf, hl⟩ := List.sublist_append_iff.mp sub
  have empty : last = [] := by
    refine List.eq_nil_iff_forall_not_mem.mpr fun x hx => ?_
    have stands := standing x (List.mem_append_right first hx)
    exact (List.nodup_append.mp nodup).2.2 x stands x (hl.subset hx) rfl
  rw [empty, List.append_nil]
  exact hf

/-- What a scanned chunk adds to what is gathered above the offset. -/
theorem Scanned.mem {chunk rest more post : List κ} (scan : Scanned wanted got chunk more post)
    (here : l.drop offset = chunk ++ rest) (nodup : l.Nodup) {u x : κ} (hx : wanted x)
    (hu : u ∈ got ++ more) (hux : Before l u x) (hxc : x ∈ chunk) (hxp : x ∉ post) :
    x ∈ more := by
  obtain ⟨pre, part, rfl, first, sub, all⟩ := scan.split
  rcases List.mem_append.mp hxc with hxc | hxc
  · rcases List.mem_append.mp hxc with hxpre | hxpart
    · have none := first (List.ne_nil_of_mem hxpre)
      subst none
      have hu : u ∈ part := sub.subset (by simpa using hu)
      have whole : (l.take offset ++ (pre ++ part ++ post)).Sublist l := take_append_sublist here
      have order : Before l x u := (before_append hxpre hu).sublist
        ((List.sublist_append_left _ post).trans ((List.sublist_append_right _ _).trans whole))
      exact absurd order (hux.asymm nodup)
    · exact all x hxpart hx
  · exact absurd hxc hxp

/-- As long as what is gathered stands above the offset, a chunk adds to it in order and leaves
nothing out. -/
theorem Reached.read {chunk rest more post : List κ} (h : Reached wanted l offset got)
    (nodup : l.Nodup) (here : l.drop offset = chunk ++ rest)
    (scan : Scanned wanted got chunk more post) (standing : ∀ u ∈ got, u ∈ l.take offset) :
    Gathered wanted l (got ++ more) := by
  have old : ∀ {u x}, u ∈ got ++ more → Before l u x → x ∈ l.take offset → u ∈ got := by
    intro u x hu hux hx
    refine (List.mem_append.mp hu).resolve_right fun hm => ?_
    exact not_mem_chunk here nodup (before_take nodup hux hx) (scan.sub.subset hm)
  refine ⟨?_, fun x hx u hu v hv hux hxv => ?_⟩
  · exact ((sublist_take h.sub nodup standing).append scan.sub).trans (take_append_sublist here)
  · rcases List.mem_append.mp hv with hvg | hvm
    · have hxo := before_take nodup hxv (standing v hvg)
      exact List.mem_append_left more (h.between x hx u (old hu hux hxo) v hvg hux hxv)
    · have hvc := scan.sub.subset hvm
      rcases before_chunk here nodup hvc hxv with hxo | order
      · exact List.mem_append_left more (h.above x hx hxo u (old hu hux hxo) hux)
      · refine List.mem_append_right got (scan.mem here nodup hx hu hux order.mem_left ?_)
        intro hxp
        obtain ⟨pre, part, rfl, -, sub, -⟩ := scan.split
        have whole : (pre ++ part ++ post).Nodup :=
          ((List.sublist_append_right _ _).trans (take_append_sublist here)).nodup nodup
        have back : Before (pre ++ part ++ post) v x :=
          before_append (List.mem_append_right pre (sub.subset hvm)) hxp
        exact order.asymm whole back

/-- When the whole chunk has been looked at, the reader has come as far as its end. -/
theorem Reached.reach {chunk rest more : List κ} (h : Reached wanted l offset got)
    (nodup : l.Nodup) (here : l.drop offset = chunk ++ rest)
    (scan : Scanned wanted got chunk more []) (gathered : Gathered wanted l (got ++ more)) :
    Reached wanted l (offset + chunk.length) (got ++ more) := by
  refine ⟨gathered, fun x hx hxo u hu hux => ?_⟩
  rcases take_add_chunk here hxo with hxt | hxc
  · have hug : u ∈ got := by
      refine (List.mem_append.mp hu).resolve_right fun hm => ?_
      exact not_mem_chunk here nodup (before_take nodup hux hxt) (scan.sub.subset hm)
    exact List.mem_append_left more (h.above x hx hxt u hug hux)
  · exact List.mem_append_right got (scan.mem here nodup hx hu hux hxc (by simp))

/-- What is gathered for a page of this size, and how far the reader has come unless the page is
complete and followed by another. -/
structure Held (size : Nat) (wanted : κ → Prop) (l : List κ) (offset : Nat) (got : List κ) :
    Prop where
  page : Gathered wanted l (got.take size)
  reached : got.length ≤ size → Reached wanted l offset got

theorem Held.nil : Held size wanted l offset [] := ⟨by simpa using .nil, fun _ => .nil⟩

theorem Held.grow (h : Held size wanted l offset got) (known : ∀ x, wanted x → x ∈ l)
    (sub : l.Sublist l') (nodup : l'.Nodup) : Held size wanted l' offset got :=
  ⟨h.page.grow known sub nodup, fun room => (h.reached room).grow known sub nodup⟩

/-- The rule for a chunk: what is gathered still stands above the offset, or the page is complete
and the chunk can only tell that another one follows. -/
theorem Held.read {chunk rest more post : List κ} (h : Held size wanted l offset got)
    (room : got.length ≤ size) (nodup : l.Nodup) (here : l.drop offset = chunk ++ rest)
    (scan : Scanned wanted got chunk more post)
    (steady : got.length = size ∨ ∀ u ∈ got, u ∈ l.take offset)
    (stopped : post ≠ [] → size < (got ++ more).length) :
    Held size wanted l (offset + chunk.length) (got ++ more) := by
  have reached := h.reached room
  by_cases standing : ∀ u ∈ got, u ∈ l.take offset
  · have gathered := reached.read nodup here scan standing
    refine ⟨gathered.take nodup size, fun room => ?_⟩
    have whole : post = [] := by
      by_contra ne
      exact absurd (stopped ne) (by omega)
    exact reached.reach nodup here (whole ▸ scan) gathered
  · have complete := steady.resolve_right standing
    refine ⟨?_, fun room => ?_⟩
    · rw [← complete, List.take_left]
      exact reached.toGathered
    · have nothing : more = [] := by
        refine List.eq_nil_of_length_eq_zero ?_
        rw [List.length_append] at room
        omega
      have whole : post = [] := by
        by_contra ne
        exact absurd (stopped ne) (by omega)
      refine reached.reach nodup here (whole ▸ scan) ?_
      rw [nothing, List.append_nil]
      exact reached.toGathered

/-- Whatever the entries of a chunk turn out to add, it will be held. -/
def Loading (size : Nat) (wanted : κ → Prop) (l : List κ) (offset : Nat) (keys got : List κ) :
    Prop :=
  ∀ more post, Scanned wanted got keys more post →
    (post ≠ [] → size < (got ++ more).length) →
      Held size wanted l (offset + keys.length) (got ++ more)

theorem Held.load (h : Held size wanted l offset got) (room : got.length ≤ size)
    (nodup : l.Nodup) (n : Nat)
    (steady : size ≤ got.length ∨ ∀ u ∈ got, u ∈ l.take offset) :
    Loading size wanted l offset ((l.drop offset).take n) got := by
  intro more post scan stopped
  refine h.read room nodup (List.take_append_drop n (l.drop offset)).symm scan ?_ stopped
  exact steady.imp_left fun complete => le_antisymm room complete

/-- What is not above the offset does not get there. -/
theorem mem_drop_of_sublist {a : κ} (sub : l.Sublist l') (nodup : l'.Nodup)
    (h : a ∈ l.drop offset) : a ∈ l'.drop offset := by
  have mem := List.mem_of_mem_drop h
  have mem' := sub.subset mem
  rw [← List.take_append_drop offset l', List.mem_append] at mem'
  refine mem'.resolve_left fun above => ?_
  have distinct := sub.nodup nodup
  rw [← List.take_append_drop offset l, List.nodup_append] at distinct
  exact distinct.2.2 a (mem_take_of_sublist sub nodup mem above) a h rfl

theorem Loading.grow {keys : List κ} (h : Loading size wanted l offset keys got)
    (known : ∀ x, wanted x → x ∈ l) (sub : l.Sublist l') (nodup : l'.Nodup) :
    Loading size wanted l' offset keys got :=
  fun more post scan stopped => (h more post scan stopped).grow known sub nodup

end Grow

section Follow

variable {α : Type*}

/-- A list in pages of this size, one page at least. -/
def pagesOf (size : Nat) (l : List α) : List (List α) :=
  if 0 < size ∧ size < l.length then l.take size :: pagesOf size (l.drop size) else [l]
termination_by l.length
decreasing_by
  rename_i more
  rw [List.length_drop]
  omega

theorem flatten_pagesOf (size : Nat) (l : List α) : (pagesOf size l).flatten = l := by
  fun_induction pagesOf size l with
  | case1 l more ih => rw [List.flatten_cons, ih, List.take_append_drop]
  | case2 l last => simp

variable {S κ ε : Type*}

/-- The page, and the key of its last entry if there is more. -/
def cutPage (key : α → κ) (size : Nat) (items : List α) : List α × Option κ :=
  if items.length > size then (items.take size, (items.take size).getLast?.map key)
  else (items, none)

/-- Only the items of a page matter, and whether there is another one. -/
theorem cutPage_take {key : α → κ} {size : Nat} {items : List α} :
    cutPage key size (items.take (size + 1)) = cutPage key size items := by
  by_cases more : items.length > size
  · rw [cutPage, cutPage, if_pos more, if_pos (by rw [List.length_take]; omega), List.take_take,
      Nat.min_eq_left (by omega)]
  · rw [List.take_of_length_le (by omega)]

theorem cutPage_last {key : α → κ} {size : Nat} {items : List α} (last : items.length ≤ size) :
    cutPage key size items = (items, none) := if_neg (by omega)

/-- A page that is followed by another ends with the entry its key names. -/
theorem cutPage_more (key : α → κ) {size : Nat} {items : List α} (positive : 0 < size)
    (more : size < items.length) : ∃ u r, items = u ++ r :: items.drop size ∧
      cutPage key size items = (items.take size, some (key r)) := by
  obtain ⟨u, r, split⟩ : ∃ u r, items.take size = u ++ [r] := by
    have nonempty : items.take size ≠ [] := by
      refine List.ne_nil_of_length_pos ?_
      rw [List.length_take]
      omega
    exact ⟨_, _, (List.dropLast_append_getLast nonempty).symm⟩
  refine ⟨u, r, ?_, ?_⟩
  · conv_lhs => rw [← List.take_append_drop size items, split]
    rw [List.append_assoc, List.singleton_append]
  · rw [cutPage, if_pos more, split, List.getLast?_concat]
    rfl

/-- One call after the other, each with the cursor that the one before it has returned and in the
next of the states given, until there is no cursor. -/
def follow (page : S → Option κ → Except ε (List α × Option κ)) :
    List S → Option κ → Except ε (List (List α) × Option κ)
  | [], cursor => .ok ([], cursor)
  | s :: rest, cursor =>
    (page s cursor).bind fun
      | (items, none) => .ok ([items], none)
      | (items, some next) => (follow page rest (some next)).map fun later =>
        (items :: later.1, later.2)

/-- The pages are those of what the first call is to return, if every call returns a page of what
is left below its cursor. -/
theorem follow_eq {page : S → Option κ → Except ε (List α × Option κ)}
    (left : S → Option κ → List α) {R : S → S → Prop} {size : Nat} (positive : 0 < size)
    (last : ∀ s cursor, (left s cursor).length ≤ size → page s cursor = .ok (left s cursor, none))
    (more : ∀ s cursor, size < (left s cursor).length → ∃ next,
      page s cursor = .ok ((left s cursor).take size, some next) ∧
        ∀ t, R s t → left t (some next) = (left s cursor).drop size)
    {s : S} {rest : List S} {cursor : Option κ} (chain : (s :: rest).IsChain R)
    (enough : (left s cursor).length ≤ rest.length) :
    follow page (s :: rest) cursor = .ok (pagesOf size (left s cursor), none) := by
  induction rest generalizing s cursor with
  | nil =>
    rw [follow, last s cursor (by simp only [List.length_nil] at enough; omega), pagesOf,
      if_neg (by simp only [List.length_nil] at enough; omega)]
    rfl
  | cons t rest ih =>
    obtain ⟨step, chain⟩ := List.isChain_cons_cons.mp chain
    rw [follow, pagesOf]
    by_cases one : (left s cursor).length ≤ size
    · rw [last s cursor one, if_neg (by omega)]
      rfl
    · obtain ⟨next, here, below⟩ := more s cursor (by omega)
      have later := below t step
      rw [List.length_cons] at enough
      rw [here, if_pos ⟨positive, by omega⟩]
      simp only [Except.bind]
      rw [ih chain (by rw [later, List.length_drop]; omega), later]
      rfl

end Follow

section Collect

variable {κ ρ : Type*}

/-- Keep what is accepted until there is more than a page of it. -/
def collector (accept : ρ → Bool) (size chunk : Nat) (chunk_pos : 0 < chunk) :
    Reader κ ρ (List ρ) where
  step entry items := match entry.2.filter accept with
    | some r => items ++ [r]
    | none => items
  full items := size < items.length
  chunk := chunk
  chunk_pos := chunk_pos

/-- What is stored under a key, if it is there and accepted. -/
def accepted (accept : ρ → Bool) (load : κ → Option ρ) (k : κ) : Option ρ := (load k).filter accept

variable {accept : ρ → Bool} {size chunk : Nat} {chunk_pos : 0 < chunk} {load : κ → Option ρ}
  {keys : List κ} {items : List ρ}

/-- What is accepted of a list has its keys in the order of the list. -/
theorem map_accepted_sublist {name : ρ → κ} (named : ∀ k r, load k = some r → name r = k)
    (l : List κ) : ((l.filterMap (accepted accept load)).map name).Sublist l := by
  induction l with
  | nil => exact List.Sublist.slnil
  | cons k l ih =>
    cases here : accepted accept load k with
    | none =>
      rw [List.filterMap_cons_none here]
      exact ih.cons k
    | some r =>
      rw [List.filterMap_cons_some here, List.map_cons,
        named k r (Option.filter_eq_some_iff.mp here).1]
      exact ih.cons_cons k

/-- What a chunk adds to the items, and the rest of it that is not looked at. -/
theorem collector_take (room : items.length ≤ size) : ∃ part post more, keys = part ++ post ∧
    more = part.filterMap (accepted accept load) ∧
    (collector accept size chunk chunk_pos).take load keys items = items ++ more ∧
    (items ++ more).length ≤ size + 1 ∧ (post ≠ [] → size < (items ++ more).length) := by
  induction keys generalizing items with
  | nil => exact ⟨[], [], [], rfl, rfl, by simp [Reader.take, foldUntil], by simp; omega, by simp⟩
  | cons k keys ih =>
    unfold Reader.take at ih ⊢
    simp only [List.map_cons, foldUntil]
    cases here : accepted accept load k with
    | none =>
      have skip : (collector accept size chunk chunk_pos).step (k, load k) items = items := by
        unfold accepted at here
        simp [collector, here]
      obtain ⟨part, post, more, rfl, taken, all, bound, stopped⟩ := ih room
      refine ⟨k :: part, post, more, rfl, ?_, ?_, bound, stopped⟩
      · rw [taken, List.filterMap_cons_none here]
      · rw [skip, if_neg (by simpa [collector] using room), all]
    | some r =>
      have add : (collector accept size chunk chunk_pos).step (k, load k) items = items ++ [r] := by
        unfold accepted at here
        simp [collector, here]
      rw [add]
      by_cases filled : size < (items ++ [r]).length
      · refine ⟨[k], keys, [r], rfl, ?_, ?_, ?_, fun _ => filled⟩
        · rw [List.filterMap_cons_some here]
          rfl
        · rw [if_pos (by simpa [collector] using filled)]
        · rw [List.length_append, List.length_singleton]
          omega
      · rw [if_neg (by simpa [collector] using filled)]
        obtain ⟨part, post, more, rfl, taken, all, bound, stopped⟩ :=
          @ih (items ++ [r]) (by omega)
        refine ⟨k :: part, post, r :: more, rfl, ?_, ?_, ?_, ?_⟩
        · rw [taken, List.filterMap_cons_some here]
        · rw [all, List.append_assoc, List.singleton_append]
        · simpa using bound
        · simpa using stopped

/-- A whole list adds what it has up to the first beyond a page. -/
theorem collector_take_eq (room : items.length ≤ size) :
    (collector accept size chunk chunk_pos).take load keys items =
      (items ++ keys.filterMap (accepted accept load)).take (size + 1) := by
  obtain ⟨part, post, more, rfl, taken, all, bound, stopped⟩ :=
    @collector_take _ _ accept size chunk chunk_pos load keys items room
  rw [all, List.filterMap_append, ← taken, ← List.append_assoc]
  by_cases whole : post = []
  · subst whole
    rw [List.filterMap_nil, List.append_nil, List.take_of_length_le bound]
  · rw [List.take_left' (by have := stopped whole; omega)]

end Collect

end Chunks
