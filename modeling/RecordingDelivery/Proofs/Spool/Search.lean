import RecordingDelivery.Proofs.Spool.Scan

/-!
What a search finds, said without the search: each way down from the directory that leads to a
recording that waits, once, in the order of the names.
-/
namespace RecordingDelivery

/-- Of two ways down, the first has the lesser name where they part. -/
def Precedes (a b : List Bytes) : Prop :=
  ∃ front n m back back', a = front ++ n :: back ∧ b = front ++ m :: back' ∧
    Bytes.le n m = true ∧ n ≠ m

theorem Precedes.cons {a b : List Bytes} (h : Precedes a b) (n : Bytes) :
    Precedes (n :: a) (n :: b) := by
  obtain ⟨front, x, y, back, back', rfl, rfl, hle, hne⟩ := h
  exact ⟨n :: front, x, y, back, back', rfl, rfl, hle, hne⟩

namespace Tree

variable {t : Tree} {d : Destination} {dir : Path} {base : Location}

def Lists (t : Tree) (p : Path) (n : Bytes) (e : Entry) : Prop :=
  ∃ entries, t.listDirectory p = .ok entries ∧ (n, e) ∈ entries

/-- The names that lead from a directory to a recording that waits for delivery to a destination.
Down to it there are directories that can be read, no links, and nothing is hidden. -/
structure Awaits (t : Tree) (d : Destination) (dir : Path) (names : List Bytes) : Prop where
  visible : ∀ n ∈ names, isHidden n = false
  directories : ∀ front n back, names = front ++ n :: back → back ≠ [] →
    t.Lists (dir.descend front) n .directory
  file : ∃ front n c, names = front ++ [n] ∧ t.Lists (dir.descend front) n (.file c) ∧
    Marker.isUploadedName n = false
  flat : d.recurse = true ∨ names.length = 1
  suffix : (dir.descend names).bytes.endsWith (Bytes.ofText d.suffix) = true

theorem lists_iff {p : Path} {n : Bytes} {e : Entry} (ht : t.WellFormed) :
    t.Lists p n e ↔ ∃ l, t.openDirectory p = .ok l ∧ t.get? (l ++ [n]) = some e := by
  unfold Lists listDirectory
  cases t.openDirectory p with
  | error fault => simp [bind, Except.bind]
  | ok l =>
    have hmem : (n, e) ∈ (t.names l).filterMap (fun n => (t.get? (l ++ [n])).map fun e => (n, e)) ↔
        t.get? (l ++ [n]) = some e := by
      rw [List.mem_filterMap]
      constructor
      · rintro ⟨m, -, hm⟩
        obtain ⟨x, hx, he⟩ := Option.map_eq_some_iff.mp hm
        obtain ⟨rfl, rfl⟩ := Prod.mk.inj he
        exact hx
      · intro he
        exact ⟨n, ht.mem_names_iff.mpr (by simp [he]), by simp [he]⟩
    simpa [bind, Except.bind] using hmem

def waysUnder (d : Destination) (search : Path → List (List Bytes)) (dir : Path)
    (a : Bytes × Entry) : List (List Bytes) :=
  if isHidden a.1 then []
  else match a.2 with
    | .directory => if d.recurse then (search (dir.join a.1)).map (a.1 :: ·) else []
    | .file _ => if d.isPending (dir.join a.1) then [[a.1]] else []
    | .link _ | .pipe => []

/-- The ways down that a search takes to the recordings it finds. -/
def waysWithin (t : Tree) (d : Destination) : Nat → Path → List (List Bytes)
  | 0, _ => []
  | depth + 1, dir =>
    match t.listDirectory dir with
    | .error _ => []
    | .ok entries => entries.flatMap (waysUnder d (waysWithin t d depth) dir)

theorem recordingsWithin_eq_map (t : Tree) (d : Destination) (depth : Nat) (dir : Path) :
    t.recordingsWithin d depth dir = (t.waysWithin d depth dir).map dir.descend := by
  induction depth generalizing dir with
  | zero => rfl
  | succ depth ih =>
    rw [recordingsWithin, waysWithin]
    cases t.listDirectory dir with
    | error fault => rfl
    | ok entries =>
      dsimp only
      rw [List.map_flatMap]
      refine congrArg (fun f => entries.flatMap f) ?_
      funext entry
      obtain ⟨name, e⟩ := entry
      by_cases hhidden : isHidden name = true
      · simp [waysUnder, hhidden]
      · cases e with
        | directory =>
          cases hrecurse : d.recurse with
          | true => simp [waysUnder, hhidden, hrecurse, ih, Function.comp_def, Path.descend]
          | false => simp [waysUnder, hhidden, hrecurse]
        | file c =>
          cases hpending : d.isPending (dir.join name) <;>
            simp [waysUnder, hhidden, hpending, Path.descend]
        | link target | pipe => simp [waysUnder, hhidden]

theorem mem_waysUnder {search : Path → List (List Bytes)} {n : Bytes} {e : Entry}
    {names : List Bytes} :
    names ∈ waysUnder d search dir (n, e) ↔ ∃ back, names = n :: back ∧ isHidden n = false ∧
      ((e = .directory ∧ d.recurse = true ∧ back ∈ search (dir.join n)) ∨
        (back = [] ∧ d.isPending (dir.join n) = true ∧ ∃ c, e = .file c)) := by
  unfold waysUnder
  constructor
  · intro h
    split at h
    · simp at h
    · rename_i hnot
      have hvisible : isHidden n = false := by simpa using hnot
      cases e with
      | directory =>
        by_cases hrecurse : d.recurse = true
        · simp only [hrecurse, if_true] at h
          obtain ⟨back, hback, rfl⟩ := List.mem_map.mp h
          exact ⟨back, rfl, hvisible, .inl ⟨rfl, hrecurse, hback⟩⟩
        · simp [hrecurse] at h
      | file c =>
        by_cases hpending : d.isPending (dir.join n) = true
        · obtain rfl : names = [n] := by simpa [hpending] using h
          exact ⟨[], rfl, hvisible, .inr ⟨rfl, hpending, c, rfl⟩⟩
        · simp [hpending] at h
      | link target | pipe => simp at h
  · rintro ⟨back, rfl, hvisible, ⟨rfl, hrecurse, hback⟩ | ⟨rfl, hpending, c, rfl⟩⟩
    · simpa [hvisible, hrecurse] using hback
    · simp [hvisible, hpending]

theorem mem_waysWithin_succ {depth : Nat} {names : List Bytes} :
    names ∈ t.waysWithin d (depth + 1) dir ↔ ∃ n back, names = n :: back ∧ isHidden n = false ∧
      ((t.Lists dir n .directory ∧ d.recurse = true ∧ back ∈ t.waysWithin d depth (dir.join n)) ∨
        (back = [] ∧ d.isPending (dir.join n) = true ∧ ∃ c, t.Lists dir n (.file c))) := by
  rw [waysWithin]
  cases hlist : t.listDirectory dir with
  | error fault => simp [Lists, hlist]
  | ok entries =>
    simp only [Lists, hlist, List.mem_flatMap, Except.ok.injEq, exists_eq_left']
    constructor
    · rintro ⟨⟨n, e⟩, hmem, hnames⟩
      obtain ⟨back, hback, hvisible, ⟨rfl, hfurther⟩ | ⟨hend, hpending, c, rfl⟩⟩ :=
        mem_waysUnder.mp hnames
      · exact ⟨n, back, hback, hvisible, .inl ⟨hmem, hfurther⟩⟩
      · exact ⟨n, back, hback, hvisible, .inr ⟨hend, hpending, c, hmem⟩⟩
    · rintro ⟨n, back, hback, hvisible, ⟨hmem, hfurther⟩ | ⟨hend, hpending, c, hmem⟩⟩
      · exact ⟨_, hmem, mem_waysUnder.mpr ⟨back, hback, hvisible, .inl ⟨rfl, hfurther⟩⟩⟩
      · exact ⟨_, hmem, mem_waysUnder.mpr ⟨back, hback, hvisible, .inr ⟨hend, hpending, c, rfl⟩⟩⟩

theorem isPending_join (d : Destination) {n : Bytes} (hn : Path.IsName n) :
    d.isPending (dir.join n) = true ↔ Marker.isUploadedName n = false ∧
      (dir.join n).bytes.endsWith (Bytes.ofText d.suffix) = true := by
  have hempty : d.suffix.isEmpty = true →
      (dir.join n).bytes.endsWith (Bytes.ofText d.suffix) = true := by
    intro h
    rw [String.isEmpty_iff.mp h]
    rfl
  rw [Destination.isPending, Path.fileName_join dir hn]
  simp only [Bool.and_eq_true, Bool.or_eq_true, Bool.not_eq_true']
  exact and_congr_right fun _ => ⟨fun h => h.elim hempty id, .inr⟩

theorem not_awaits_nil : ¬ t.Awaits d dir [] := by
  rintro ⟨-, -, ⟨front, n, c, hnil, -⟩, -, -⟩
  simp at hnil

theorem awaits_cons_iff (ht : t.WellFormed) {n : Bytes} {back : List Bytes} :
    t.Awaits d dir (n :: back) ↔ isHidden n = false ∧
      ((t.Lists dir n .directory ∧ d.recurse = true ∧ t.Awaits d (dir.join n) back) ∨
        (back = [] ∧ d.isPending (dir.join n) = true ∧ ∃ c, t.Lists dir n (.file c))) := by
  have hpending {c : Bytes} (h : t.Lists dir n (.file c)) : d.isPending (dir.join n) = true ↔
      Marker.isUploadedName n = false ∧
        (dir.join n).bytes.endsWith (Bytes.ofText d.suffix) = true := by
    obtain ⟨l, hfind, hget⟩ := (lists_iff ht).mp h
    exact isPending_join d (ht.isName hget n (by simp))
  constructor
  · intro h
    refine ⟨h.visible n (by simp), ?_⟩
    obtain ⟨front, m, c, hnames, hfile, hmark⟩ := h.file
    cases front with
    | nil =>
      obtain ⟨rfl, rfl⟩ : n = m ∧ back = [] := by simpa using hnames
      exact .inr ⟨rfl, (hpending hfile).mpr ⟨hmark, h.suffix⟩, c, hfile⟩
    | cons x front =>
      obtain ⟨rfl, hback⟩ : n = x ∧ back = front ++ [m] := by simpa using hnames
      have hne : back ≠ [] := by simp [hback]
      have hrecurse : d.recurse = true := h.flat.resolve_right (by simpa using hne)
      refine .inl ⟨h.directories [] n back rfl hne, hrecurse, ?_, ?_, ⟨front, m, c, hback, hfile,
        hmark⟩, .inl hrecurse, h.suffix⟩
      · intro k hk
        exact h.visible k (by simp [hk])
      · intro front' k back' hk hne'
        exact h.directories (n :: front') k back' (by rw [hk]; rfl) hne'
  · rintro ⟨hvisible, ⟨hlists, hrecurse, h⟩ | ⟨rfl, hwaits, c, hlists⟩⟩
    · obtain ⟨front, m, c, hback, hfile, hmark⟩ := h.file
      refine ⟨?_, ?_, ⟨n :: front, m, c, by rw [hback]; rfl, hfile, hmark⟩, .inl hrecurse, h.suffix⟩
      · intro k hk
        rcases List.mem_cons.mp hk with rfl | hk
        · exact hvisible
        · exact h.visible k hk
      · intro front' k back' hk hne'
        cases front' with
        | nil =>
          obtain ⟨rfl, -⟩ : n = k ∧ back = back' := by simpa using hk
          exact hlists
        | cons x front' =>
          obtain ⟨rfl, hfurther⟩ : n = x ∧ back = front' ++ k :: back' := by simpa using hk
          exact h.directories front' k back' hfurther hne'
    · obtain ⟨hmark, hsuffix⟩ := (hpending hlists).mp hwaits
      refine ⟨by simpa using hvisible, ?_, ⟨[], n, c, rfl, hlists, hmark⟩, .inr rfl, hsuffix⟩
      intro front' k back' hk hne'
      have := congrArg List.length hk
      simp at this
      exact absurd (List.length_eq_zero_iff.mp (by omega)) hne'

theorem mem_waysWithin (ht : t.WellFormed) {depth : Nat} {names : List Bytes} :
    names ∈ t.waysWithin d depth dir ↔ t.Awaits d dir names ∧ names.length ≤ depth := by
  induction depth generalizing dir names with
  | zero =>
    refine ⟨fun h => by simp [waysWithin] at h, ?_⟩
    rintro ⟨h, hlength⟩
    rw [List.length_eq_zero_iff.mp (Nat.le_zero.mp hlength)] at h
    exact absurd h not_awaits_nil
  | succ depth ih =>
    rw [mem_waysWithin_succ]
    constructor
    · rintro ⟨n, back, rfl, hvisible, ⟨hlists, hrecurse, hback⟩ | ⟨rfl, hwaits⟩⟩
      · obtain ⟨h, hlength⟩ := ih.mp hback
        exact ⟨(awaits_cons_iff ht).mpr ⟨hvisible, .inl ⟨hlists, hrecurse, h⟩⟩,
          Nat.succ_le_succ hlength⟩
      · exact ⟨(awaits_cons_iff ht).mpr ⟨hvisible, .inr ⟨rfl, hwaits⟩⟩, by simp⟩
    · rintro ⟨h, hlength⟩
      cases names with
      | nil => exact absurd h not_awaits_nil
      | cons n back =>
        obtain ⟨hvisible, ⟨hlists, hrecurse, h⟩ | hend⟩ := (awaits_cons_iff ht).mp h
        · exact ⟨n, back, rfl, hvisible,
            .inl ⟨hlists, hrecurse, ih.mpr ⟨h, Nat.le_of_succ_le_succ hlength⟩⟩⟩
        · exact ⟨n, back, rfl, hvisible, .inr hend⟩

theorem get?_of_lists (ht : t.WellFormed) (hdir : t.find .target dir = .ok (base, .directory))
    {front : List Bytes}
    (h : ∀ f n back, front = f ++ n :: back → t.Lists (dir.descend f) n .directory) :
    t.get? (base ++ front) = some .directory := by
  induction front using List.reverseRecOn with
  | nil =>
    rw [List.append_nil]
    exact (find_eq_ok_iff.mp hdir).2.2
  | append_singleton front m ih =>
    have hfront := ih fun f n back hf => h f n (back ++ [m]) (by rw [hf]; simp)
    obtain ⟨l, hopen, hget⟩ := (lists_iff ht).mp (h front m [] rfl)
    rcases ((Keeps.refl t dir).open_descend ht hdir hfront).2 with hok | ⟨fault, herror⟩
    · obtain rfl := Except.ok.inj (hok.symm.trans hopen)
      rwa [← List.append_assoc]
    · rw [hopen] at herror
      simp at herror

theorem Awaits.get? (ht : t.WellFormed) {names : List Bytes} (h : t.Awaits d dir names) :
    ∃ base c, t.find .target dir = .ok (base, .directory) ∧
      t.get? (base ++ names) = some (.file c) := by
  obtain ⟨front, n, c, rfl, hfile, -⟩ := h.file
  have hlists : ∀ f m back, front = f ++ m :: back → t.Lists (dir.descend f) m .directory := by
    intro f m back hf
    exact h.directories f m (back ++ [n]) (by rw [hf]; simp) (by simp)
  obtain ⟨base, hdir⟩ : ∃ base, t.find .target dir = .ok (base, .directory) := by
    cases front with
    | nil =>
      obtain ⟨l, hopen, -⟩ := (lists_iff ht).mp hfile
      exact ⟨l, (openDirectory_eq_ok_iff.mp hopen).1⟩
    | cons m front =>
      obtain ⟨l, hopen, -⟩ := (lists_iff ht).mp (hlists [] m front rfl)
      exact ⟨l, (openDirectory_eq_ok_iff.mp hopen).1⟩
  have hfront := get?_of_lists ht hdir hlists
  obtain ⟨l, hopen, hget⟩ := (lists_iff ht).mp hfile
  refine ⟨base, c, hdir, ?_⟩
  rcases ((Keeps.refl t dir).open_descend ht hdir hfront).2 with hok | ⟨fault, herror⟩
  · obtain rfl := Except.ok.inj (hok.symm.trans hopen)
    rwa [← List.append_assoc]
  · rw [hopen] at herror
    simp at herror

def ways (t : Tree) (d : Destination) (dir : Path) : List (List Bytes) :=
  t.waysWithin d (t.depth + 1) dir

theorem recordings_eq_map (t : Tree) (d : Destination) (dir : Path) :
    t.recordings d dir = (t.ways d dir).map dir.descend := recordingsWithin_eq_map t d _ dir

/-- The search goes deep enough for all that waits. -/
theorem mem_ways (ht : t.WellFormed) {names : List Bytes} :
    names ∈ t.ways d dir ↔ t.Awaits d dir names := by
  rw [ways, mem_waysWithin ht]
  refine and_iff_left_of_imp fun h => ?_
  obtain ⟨base, c, -, hget⟩ := h.get? ht
  have := ht.length_le_depth hget
  rw [List.length_append] at this
  omega

end Tree
end RecordingDelivery
