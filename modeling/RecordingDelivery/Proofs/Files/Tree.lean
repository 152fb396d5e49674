import Mathlib.Data.List.Nodup
import RecordingDelivery.Files.Calls
import RecordingDelivery.Proofs.Files.Path

/-!
Well-formed trees, and what they look like when a file is gone or has another name in the same
directory. Everything is said by what stands where, as the order of the entries shows in nothing.
-/
namespace RecordingDelivery

namespace Bytes

theorem le_trans (a b c : Bytes) (hab : le a b = true) (hbc : le b c = true) : le a c = true := by
  induction a generalizing b c with
  | nil => rfl
  | cons x a ih =>
    cases b with
    | nil => simp [le] at hab
    | cons y b =>
      cases c with
      | nil => simp [le] at hbc
      | cons z c =>
        simp only [le, Bool.or_eq_true, Bool.and_eq_true, decide_eq_true_eq, beq_iff_eq,
          UInt8.lt_iff_toNat_lt] at *
        rcases hab with hxy | ⟨rfl, hab⟩
        · rcases hbc with hyz | ⟨rfl, -⟩
          · exact .inl (by omega)
          · exact .inl hxy
        · rcases hbc with hyz | ⟨rfl, hbc⟩
          · exact .inl hyz
          · exact .inr ⟨rfl, ih b c hab hbc⟩

theorem le_total (a b : Bytes) : (le a b || le b a) = true := by
  induction a generalizing b with
  | nil => rfl
  | cons x a ih =>
    cases b with
    | nil => simp [le]
    | cons y b =>
      have := ih b
      simp only [le, Bool.or_eq_true, Bool.and_eq_true, decide_eq_true_eq, beq_iff_eq,
        UInt8.lt_iff_toNat_lt] at *
      rcases Nat.lt_trichotomy x.toNat y.toNat with h | h | h
      · exact .inl (.inl h)
      · have hxy : x = y := UInt8.toNat_inj.mp h
        rcases this with hab | hba
        · exact .inl (.inr ⟨hxy, hab⟩)
        · exact .inr (.inr ⟨hxy.symm, hba⟩)
      · exact .inr (.inl h)

theorem le_antisymm (a b : Bytes) (hab : le a b = true) (hba : le b a = true) : a = b := by
  induction a generalizing b with
  | nil =>
    cases b with
    | nil => rfl
    | cons y b => simp [le] at hba
  | cons x a ih =>
    cases b with
    | nil => simp [le] at hab
    | cons y b =>
      simp only [le, Bool.or_eq_true, Bool.and_eq_true, decide_eq_true_eq, beq_iff_eq,
        UInt8.lt_iff_toNat_lt] at *
      rcases hab with hxy | ⟨rfl, hab⟩
      · rcases hba with hyx | ⟨rfl, -⟩ <;> omega
      · rcases hba with hyx | ⟨-, hba⟩
        · omega
        · rw [ih b hab hba]

end Bytes

/-- What is searched in the order of the names does not depend on names for which nothing is found. -/
theorem flatMap_eq_of_sorted {β : Type} {f : Bytes → List β} {l l' : List Bytes}
    (hl : l.Pairwise fun a b => Bytes.le a b = true) (hnd : l.Nodup)
    (hl' : l'.Pairwise fun a b => Bytes.le a b = true) (hnd' : l'.Nodup)
    (h : ∀ n ∈ l, n ∉ l' → f n = []) (h' : ∀ n ∈ l', n ∉ l → f n = []) :
    l.flatMap f = l'.flatMap f := by
  have hskip {k k' : List Bytes} (hk : ∀ n ∈ k, n ∉ k' → f n = []) :
      k.flatMap f = (k.filter (· ∈ k')).flatMap f := by
    induction k with
    | nil => rfl
    | cons n k ih =>
      have hrest := ih fun m hm => hk m (by simp [hm])
      by_cases hn : n ∈ k'
      · simp [hn, hrest]
      · simp [hn, hk n (by simp) hn, hrest]
  have hsame : l.filter (· ∈ l') = l'.filter (· ∈ l) := by
    refine List.Perm.eq_of_pairwise (fun a b _ _ => Bytes.le_antisymm a b) (hl.filter _)
      (hl'.filter _) ?_
    apply (List.perm_ext_iff_of_nodup (hnd.filter _) (hnd'.filter _)).mpr
    intro n
    simp [and_comm]
  rw [hskip h, hskip h', hsame]

namespace Tree

variable {t : Tree}

/-- Each location has one entry at most, the names are such as can stand in a directory, and what is
there stands in a directory. -/
structure WellFormed (t : Tree) : Prop where
  distinct : (t.entries.map (·.1)).Nodup
  named : ∀ e ∈ t.entries, ∀ n ∈ e.1, Path.IsName n
  rooted : ∀ l n e, t.get? (l ++ [n]) = some e → t.get? l = some .directory

theorem lookup_eq_some_iff {es : List (Location × Node)} (h : (es.map (·.1)).Nodup) {l : Location}
    {a : Node} : es.lookup l = some a ↔ (l, a) ∈ es := by
  induction es with
  | nil => simp
  | cons b es ih =>
    obtain ⟨k, v⟩ := b
    obtain ⟨hk, hes⟩ := List.nodup_cons.mp h
    rw [List.lookup_cons, List.mem_cons]
    by_cases hl : l = k
    · subst hl
      have hno : (l, a) ∉ es := fun hm => hk (List.mem_map.mpr ⟨_, hm, rfl⟩)
      simp [hno, eq_comm]
    · have : (l == k) = false := by simpa using hl
      simp [this, hl, ih hes]

theorem get?_eq_some_iff {l : Location} {e : Entry} :
    t.get? l = some e ↔ ∃ a, t.node? l = some a ∧ a.entry = e := Option.map_eq_some_iff

theorem get?_eq_none_iff {l : Location} : t.get? l = none ↔ t.node? l = none :=
  Option.map_eq_none_iff

theorem WellFormed.node?_eq_some_iff (h : t.WellFormed) {l : Location} (hl : l ≠ []) {a : Node} :
    t.node? l = some a ↔ (l, a) ∈ t.entries := by
  rw [node?, if_neg hl, lookup_eq_some_iff h.distinct]

theorem wellFormed_iff : t.WellFormed ↔ (t.entries.map (·.1)).Nodup ∧
    (∀ e ∈ t.entries, ∀ n ∈ e.1, Path.IsName n) ∧
    ∀ e ∈ t.entries, t.get? e.1.dropLast = some .directory := by
  constructor
  · intro h
    refine ⟨h.distinct, h.named, ?_⟩
    rintro ⟨x, a⟩ ha
    rcases List.eq_nil_or_concat x with rfl | ⟨l, n, rfl⟩
    · rfl
    · rw [List.concat_eq_append] at ha ⊢
      have hnode := (h.node?_eq_some_iff (by simp)).mpr ha
      rw [List.dropLast_concat]
      exact h.rooted l n _ (get?_eq_some_iff.mpr ⟨a, hnode, rfl⟩)
  · rintro ⟨hdistinct, hnamed, hrooted⟩
    refine ⟨hdistinct, hnamed, ?_⟩
    intro l n e he
    obtain ⟨a, ha, -⟩ := get?_eq_some_iff.mp he
    rw [node?, if_neg (by simp), lookup_eq_some_iff hdistinct] at ha
    simpa using hrooted _ ha

instance (t : Tree) : Decidable t.WellFormed := decidable_of_iff _ wellFormed_iff.symm

example : fresh.WellFormed := by decide

theorem WellFormed.isName (h : t.WellFormed) {l : Location} {e : Entry} (hl : t.get? l = some e) :
    ∀ n ∈ l, Path.IsName n := by
  intro n hn
  have hne : l ≠ [] := List.ne_nil_of_mem hn
  obtain ⟨a, ha, -⟩ := get?_eq_some_iff.mp hl
  exact h.named _ ((h.node?_eq_some_iff hne).mp ha) n hn

theorem get?_of_isTwin {l k : Location} (h : t.isTwin l k = true) : ∃ e, t.get? k = some e := by
  unfold isTwin at h
  split at h
  · rename_i a b _ hb
    exact ⟨b.entry, get?_eq_some_iff.mpr ⟨b, hb, rfl⟩⟩
  · simp at h

theorem WellFormed.directory_of_prefix (h : t.WellFormed) {l : Location} {back : List Bytes}
    (hback : back ≠ []) {e : Entry} (he : t.get? (l ++ back) = some e) :
    t.get? l = some .directory := by
  induction back using List.reverseRecOn generalizing e with
  | nil => exact absurd rfl hback
  | append_singleton back n ih =>
    rw [← List.append_assoc] at he
    have hparent := h.rooted _ _ _ he
    by_cases hb : back = []
    · simpa [hb] using hparent
    · exact ih hb hparent

theorem WellFormed.none_below (h : t.WellFormed) {l : Location} (hl : t.get? l ≠ some .directory)
    {back : List Bytes} (hback : back ≠ []) : t.get? (l ++ back) = none := by
  by_contra hsome
  obtain ⟨e, he⟩ := Option.ne_none_iff_exists'.mp hsome
  exact hl (h.directory_of_prefix hback he)

theorem WellFormed.mem_names_iff (h : t.WellFormed) {l : Location} {n : Bytes} :
    n ∈ t.names l ↔ (t.get? (l ++ [n])).isSome = true := by
  rw [names, List.mem_mergeSort, List.mem_filterMap, Option.isSome_iff_exists]
  constructor
  · rintro ⟨⟨k, a⟩, he, hk⟩
    refine ⟨a.entry, get?_eq_some_iff.mpr ⟨a, (h.node?_eq_some_iff (by simp)).mpr ?_, rfl⟩⟩
    cases hlast : k.getLast? with
    | none => simp [hlast] at hk
    | some m =>
      obtain ⟨front, hfront⟩ := List.getLast?_eq_some_iff.mp hlast
      simp [hfront] at hk
      rw [← hk.1, ← hk.2, ← hfront]
      exact he
  · rintro ⟨e, he⟩
    obtain ⟨a, ha, -⟩ := get?_eq_some_iff.mp he
    exact ⟨_, (h.node?_eq_some_iff (by simp)).mp ha, by simp⟩

theorem get?_of_isEmptyDirectory {l : Location} (hl : t.isEmptyDirectory l = true)
    {back : List Bytes} (hback : back ≠ []) : t.get? (l ++ back) = none := by
  have hempty : t.below l = [] := by simpa [isEmptyDirectory] using hl
  rw [get?, Option.map_eq_none_iff, node?, if_neg (by simp [hback]), List.lookup_eq_none_iff]
  rintro ⟨x, e⟩ ha
  have hnot := List.filterMap_eq_nil_iff.mp hempty _ ha
  have hne : l ++ back ≠ x := by
    rintro rfl
    simp [hback] at hnot
  simpa using hne

theorem names_sorted (t : Tree) (l : Location) :
    (t.names l).Pairwise fun a b => Bytes.le a b = true :=
  List.pairwise_mergeSort Bytes.le_trans Bytes.le_total _

theorem WellFormed.names_nodup (h : t.WellFormed) (l : Location) : (t.names l).Nodup := by
  have hnames : t.names l = ((t.entries.map (·.1)).filterMap fun k =>
      k.getLast?.bind fun n => if k.dropLast = l then some n else none).mergeSort Bytes.le := by
    rw [names, List.filterMap_map]
    congr 2
    funext e
    simp only [Function.comp]
    cases e.1.getLast? <;> rfl
  rw [hnames, (List.mergeSort_perm _ _).nodup_iff]
  apply h.distinct.filterMap
  -- a location is put together from its directory and its name
  have hlast {k : Location} {n : Bytes}
      (hk : n ∈ k.getLast?.bind fun n => if k.dropLast = l then some n else none) : k = l ++ [n] := by
    obtain ⟨m, hm, hn⟩ := Option.bind_eq_some_iff.mp hk
    obtain ⟨front, hfront⟩ := List.getLast?_eq_some_iff.mp hm
    simp [hfront] at hn
    rw [hfront, hn.1, hn.2]
  intro k k' n hn hn'
  rw [hlast hn, hlast hn']

theorem WellFormed.drop (h : t.WellFormed) {l : Location} {c : Bytes}
    (hl : t.get? l = some (.file c)) : (t.drop l).WellFormed := by
  refine ⟨?_, ?_, ?_⟩
  · exact h.distinct.sublist (List.filter_sublist.map _)
  · intro e he
    exact h.named e (List.mem_filter.mp he).1
  · intro k n e he
    have hne : k ++ [n] ≠ l := by
      rintro rfl
      rw [get?_drop_self t (by simp)] at he
      simp at he
    rw [get?_drop_other t hne] at he
    have hk := h.rooted k n e he
    have : k ≠ l := by
      rintro rfl
      rw [hl] at hk
      simp at hk
    rw [get?_drop_other t this, hk]

section Renamed

variable (es : List (Location × Node)) (f : Location → Location) (keep : Location → Prop)
  [DecidablePred keep] {x y : Location}

/-- What is found under a new location is what was found under the one location that has become it. -/
theorem lookup_renamed (hy : keep y) (h : ∀ z, keep z → (f z = x ↔ z = y)) :
    ((es.filter fun a => keep a.1).map fun a => (f a.1, a.2)).lookup x = es.lookup y := by
  induction es with
  | nil => rfl
  | cons a es ih =>
    obtain ⟨z, e⟩ := a
    by_cases hzy : z = y
    · subst hzy
      have hfz : f z = x := (h z hy).mpr rfl
      simp [hy, hfz]
    · have hyz : (y == z) = false := by simpa using Ne.symm hzy
      by_cases hz : keep z
      · have hxz : (x == f z) = false := by
          have := mt (h z hz).mp hzy
          simpa using Ne.symm this
        simp [hz, List.lookup_cons, hyz, hxz, ih]
      · simp [hz, List.lookup_cons, hyz, ih]

theorem lookup_renamed_none (h : ∀ z, keep z → f z ≠ x) :
    ((es.filter fun a => keep a.1).map fun a => (f a.1, a.2)).lookup x = none := by
  rw [List.lookup_eq_none_iff]
  rintro ⟨z, e⟩ ha
  obtain ⟨b, hb, hz⟩ := List.mem_map.mp ha
  have hkeep : keep b.1 := by simpa using (List.mem_filter.mp hb).2
  have hfb : f b.1 = z := congrArg Prod.fst hz
  have := h b.1 hkeep
  rw [hfb] at this
  simpa using this.symm

end Renamed

section Move

variable {l k : Location}

/-- Where something stands after all at and below one location has been moved to another. -/
def moved (l k x : Location) : Location := if l <+: x then k ++ x.drop l.length else x

theorem entries_move (t : Tree) (l k : Location) :
    (t.move l k).entries =
      (t.entries.filter fun a => ¬ k <+: a.1).map fun a => (moved l k a.1, a.2) := by
  have hprune : (t.prune k).entries = t.entries.filter fun a => ¬ k <+: a.1 := by
    simp [prune, ← List.isPrefixOf_iff_prefix]
  rw [move, hprune]
  apply List.map_congr_left
  intro a _
  by_cases h : l <+: a.1
  · simp [moved, h, List.isPrefixOf_iff_prefix.mpr h]
  · simp [moved, h, mt List.isPrefixOf_iff_prefix.mp h]

theorem moved_inj {x y : Location} (hx : ¬ k <+: x) (hy : ¬ k <+: y)
    (h : moved l k x = moved l k y) : x = y := by
  unfold moved at h
  split at h <;> rename_i hlx <;> split at h <;> rename_i hly
  · obtain ⟨a, rfl⟩ := hlx
    obtain ⟨b, rfl⟩ := hly
    simpa using h
  · exact absurd ⟨_, h⟩ hy
  · exact absurd ⟨_, h.symm⟩ hx
  · exact h

variable (hlk : ¬ l <+: k) (hkl : ¬ k <+: l)

theorem WellFormed.distinct_move (h : t.WellFormed) : ((t.move l k).entries.map (·.1)).Nodup := by
  have hkeys : ((t.entries.filter fun a => ¬ k <+: a.1).map (·.1)).Nodup :=
    h.distinct.sublist (List.filter_sublist.map _)
  have hmap : (t.move l k).entries.map (·.1) =
      ((t.entries.filter fun a => ¬ k <+: a.1).map (·.1)).map (moved l k) := by
    rw [entries_move, List.map_map, List.map_map]
    rfl
  rw [hmap]
  refine List.Nodup.map_on ?_ hkeys
  have hother {x : Location} (hx : x ∈ (t.entries.filter fun a => ¬ k <+: a.1).map (·.1)) :
      ¬ k <+: x := by
    obtain ⟨a, ha, rfl⟩ := List.mem_map.mp hx
    simpa using (List.mem_filter.mp ha).2
  intro x hx y hy hxy
  exact moved_inj (hother hx) (hother hy) hxy

include hlk hkl

theorem node?_moved (t : Tree) (x : Location) :
    (t.move l k).node? x =
      if k <+: x then t.node? (l ++ x.drop k.length) else if l <+: x then none else t.node? x := by
  have hl : l ≠ [] := by
    rintro rfl
    exact hlk List.nil_prefix
  have hk : k ≠ [] := by
    rintro rfl
    exact hkl List.nil_prefix
  by_cases hx : x = []
  · subst hx
    rw [if_neg (by simpa using hk), if_neg (by simpa using hl), node?_root, node?_root]
  rw [node?, if_neg hx, entries_move]
  by_cases hkx : k <+: x
  · obtain ⟨y, rfl⟩ := hkx
    rw [if_pos (List.prefix_append k y), List.drop_left, node?, if_neg (by simp [hl])]
    apply lookup_renamed t.entries (moved l k) (¬ k <+: ·)
    · -- otherwise one of the two locations would be above the other
      exact fun hp => (List.prefix_or_prefix_of_prefix hp (List.prefix_append l y)).elim hkl hlk
    · intro z hkz
      constructor
      · intro hm
        unfold moved at hm
        split at hm
        · rename_i hlz
          obtain ⟨w, rfl⟩ := hlz
          simpa using hm
        · exact absurd ⟨y, hm.symm⟩ hkz
      · rintro rfl
        simp [moved]
  · rw [if_neg hkx]
    have hmoved {z : Location} (hm : moved l k z = x) : ¬ l <+: z ∧ z = x := by
      unfold moved at hm
      split at hm
      · exact absurd ⟨_, hm⟩ hkx
      · rename_i hlz
        exact ⟨hlz, hm⟩
    by_cases hlx : l <+: x
    · rw [if_pos hlx]
      apply lookup_renamed_none t.entries (moved l k) (¬ k <+: ·)
      intro z _ hm
      obtain ⟨hlz, rfl⟩ := hmoved hm
      exact hlz hlx
    · rw [if_neg hlx, node?, if_neg hx]
      apply lookup_renamed t.entries (moved l k) (¬ k <+: ·) hkx
      intro z _
      constructor
      · exact fun hm => (hmoved hm).2
      · rintro rfl
        simp [moved, hlx]

theorem get?_moved (t : Tree) (x : Location) :
    (t.move l k).get? x =
      if k <+: x then t.get? (l ++ x.drop k.length) else if l <+: x then none else t.get? x := by
  rw [get?, node?_moved hlk hkl]
  split
  · rfl
  · split <;> rfl

theorem node?_move_target (t : Tree) (below : List Bytes) :
    (t.move l k).node? (k ++ below) = t.node? (l ++ below) := by
  rw [node?_moved hlk hkl, if_pos (List.prefix_append k below), List.drop_left]

theorem node?_move_source (t : Tree) (below : List Bytes) :
    (t.move l k).node? (l ++ below) = none := by
  have hno : ¬ k <+: l ++ below := fun hp =>
    (List.prefix_or_prefix_of_prefix hp (List.prefix_append l below)).elim hkl hlk
  rw [node?_moved hlk hkl, if_neg hno, if_pos (List.prefix_append l below)]

theorem node?_move_other (t : Tree) {x : Location} (hl : ¬ l <+: x) (hk : ¬ k <+: x) :
    (t.move l k).node? x = t.node? x := by
  rw [node?_moved hlk hkl, if_neg hk, if_neg hl]

end Move

section Sibling

variable {dir : Location} {n m : Bytes} (h : t.WellFormed) (hne : n ≠ m)

theorem not_prefix_sibling (hne : n ≠ m) : ¬ dir ++ [n] <+: dir ++ [m] := by
  rw [List.prefix_append_right_inj]
  simpa using hne

theorem not_above_parent (dir : Location) (n : Bytes) : ¬ dir ++ [n] <+: dir := by
  intro hp
  have := hp.length_le
  rw [List.length_append, List.length_singleton] at this
  omega

include h hne

/-- What takes another name in its directory takes with it what is below. -/
theorem WellFormed.move {e : Entry} (hl : t.get? (dir ++ [n]) = some e) (hm : Path.IsName m) :
    (t.move (dir ++ [n]) (dir ++ [m])).WellFormed := by
  have hlk : ¬ dir ++ [n] <+: dir ++ [m] := not_prefix_sibling hne
  have hkl : ¬ dir ++ [m] <+: dir ++ [n] := not_prefix_sibling hne.symm
  have hget := get?_moved hlk hkl t
  refine ⟨h.distinct_move, ?_, ?_⟩
  · intro a ha
    rw [entries_move] at ha
    obtain ⟨b, hb, rfl⟩ := List.mem_map.mp ha
    have hnamed := h.named b (List.mem_filter.mp hb).1
    intro x hx
    unfold moved at hx
    split at hx
    · rcases List.mem_append.mp hx with hx | hx
      · rcases List.mem_append.mp hx with hx | hx
        · exact h.isName hl x (by simp [hx])
        · rw [List.mem_singleton.mp hx]
          exact hm
      · exact hnamed x (List.mem_of_mem_drop hx)
    · exact hnamed x hx
  · intro x y e' he
    rw [hget] at he
    rw [hget]
    by_cases hkx : dir ++ [m] <+: x ++ [y]
    · rw [if_pos hkx] at he
      rcases List.prefix_concat_iff.mp hkx with hlast | ⟨z, rfl⟩
      · obtain ⟨rfl, -⟩ := List.append_inj' hlast rfl
        rw [if_neg (not_above_parent _ _), if_neg (not_above_parent _ _)]
        exact h.rooted _ _ _ hl
      · rw [if_pos (List.prefix_append _ z), List.drop_left]
        rw [List.append_assoc (dir ++ [m]), List.drop_left, ← List.append_assoc] at he
        exact h.rooted _ _ _ he
    · rw [if_neg hkx] at he
      by_cases hlx : dir ++ [n] <+: x ++ [y]
      · simp [hlx] at he
      · rw [if_neg hlx] at he
        have hup {l : Location} (hno : ¬ l <+: x ++ [y]) : ¬ l <+: x :=
          fun hp => hno (hp.trans (List.prefix_append x [y]))
        rw [if_neg (hup hkx), if_neg (hup hlx)]
        exact h.rooted _ _ _ he

theorem WellFormed.node?_move {c : Bytes} (hl : t.get? (dir ++ [n]) = some (.file c))
    (hk : t.get? (dir ++ [m]) ≠ some .directory) (l : Location) :
    (t.move (dir ++ [n]) (dir ++ [m])).node? l =
      if l = dir ++ [m] then t.node? (dir ++ [n])
      else if l = dir ++ [n] then none else t.node? l := by
  have hfile : t.get? (dir ++ [n]) ≠ some .directory := by simp [hl]
  have hlk : ¬ dir ++ [n] <+: dir ++ [m] := not_prefix_sibling hne
  have hkl : ¬ dir ++ [m] <+: dir ++ [n] := not_prefix_sibling hne.symm
  by_cases hkx : dir ++ [m] <+: l
  · obtain ⟨z, rfl⟩ := hkx
    rw [node?_move_target hlk hkl]
    by_cases hz : z = []
    · simp [hz]
    · have hne' : dir ++ [m] ++ z ≠ dir ++ [m] := by simpa using hz
      have hno : dir ++ [m] ++ z ≠ dir ++ [n] := fun he => hkl ⟨z, he⟩
      rw [if_neg hne', if_neg hno, get?_eq_none_iff.mp (h.none_below hfile hz),
        get?_eq_none_iff.mp (h.none_below hk hz)]
  · have hno : l ≠ dir ++ [m] := fun he => hkx (he ▸ List.prefix_rfl)
    rw [if_neg hno]
    by_cases hlx : dir ++ [n] <+: l
    · obtain ⟨z, rfl⟩ := hlx
      rw [node?_move_source hlk hkl]
      by_cases hz : z = []
      · simp [hz]
      · rw [get?_eq_none_iff.mp (h.none_below hfile hz)]
        simp
    · have hno' : l ≠ dir ++ [n] := fun he => hlx (he ▸ List.prefix_rfl)
      rw [node?_move_other hlk hkl t hlx hkx, if_neg hno']

end Sibling

end Tree
end RecordingDelivery
