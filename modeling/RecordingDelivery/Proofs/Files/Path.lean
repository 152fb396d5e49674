import Mathlib.Data.List.Induction
import RecordingDelivery.Files.Resolve

/-!
How names are put together into paths and taken apart again. A name behind a directory's text is the
last step and the last component of the path, and the path beside it takes the same way, up to steps
that go nowhere.
-/
namespace RecordingDelivery.Path

/-- What can stand in a directory. -/
structure IsName (n : Bytes) : Prop where
  ne_nil : n ≠ []
  no_slash : slash ∉ n
  ne_dot : n ≠ [dot]
  ne_dots : n ≠ [dot, dot]

theorem isName_iff {n : Bytes} : IsName n ↔ n ≠ [] ∧ slash ∉ n ∧ n ≠ [dot] ∧ n ≠ [dot, dot] :=
  ⟨fun h => ⟨h.ne_nil, h.no_slash, h.ne_dot, h.ne_dots⟩, fun ⟨h, hs, hd, hds⟩ => ⟨h, hs, hd, hds⟩⟩

instance (n : Bytes) : Decidable (IsName n) := decidable_of_iff _ isName_iff.symm

theorem IsName.isBlank {n : Bytes} (h : IsName n) : isBlank n = false := by
  simp [Path.isBlank, h.ne_nil, h.ne_dot]

theorem cut_ne_nil (b : Bytes) : cut b ≠ [] := by
  cases b with
  | nil => simp [cut]
  | cons x b =>
    simp only [cut]
    split
    · simp
    · split <;> simp

theorem cut_cons_of_ne {x : UInt8} (hx : x ≠ slash) {b s : Bytes} {more : List Bytes}
    (h : cut b = s :: more) : cut (x :: b) = (x :: s) :: more := by
  simp [cut, hx, h]

theorem cut_append_slash (a b : Bytes) : cut (a ++ slash :: b) = cut a ++ cut b := by
  induction a with
  | nil => simp [cut]
  | cons x a ih =>
    by_cases hx : x = slash
    · simp [cut, hx, ih]
    · obtain ⟨s, more, hs⟩ := List.exists_cons_of_ne_nil (cut_ne_nil a)
      rw [List.cons_append, cut_cons_of_ne hx hs,
        cut_cons_of_ne hx (by rw [ih, hs, List.cons_append]), List.cons_append]

theorem cut_slash_cons (b : Bytes) : cut (slash :: b) = [] :: cut b := cut_append_slash [] b

theorem cut_dot_slash_cons (b : Bytes) : cut (dot :: slash :: b) = [dot] :: cut b :=
  cut_append_slash [dot] b

theorem cut_of_not_mem {n : Bytes} (h : slash ∉ n) : cut n = [n] := by
  induction n with
  | nil => rfl
  | cons x n ih =>
    have hx : x ≠ slash := fun he => h (by simp [he])
    exact cut_cons_of_ne hx (ih fun hm => h (by simp [hm]))

theorem no_slash_of_mem_cut {b s : Bytes} (h : s ∈ cut b) : slash ∉ s := by
  induction b generalizing s with
  | nil =>
    have : s = [] := by simpa [cut] using h
    simp [this]
  | cons x b ih =>
    by_cases hx : x = slash
    · have : s = [] ∨ s ∈ cut b := by simpa [cut, hx] using h
      rcases this with rfl | hs
      · simp
      · exact ih hs
    · obtain ⟨t, more, ht⟩ := List.exists_cons_of_ne_nil (cut_ne_nil b)
      rw [cut_cons_of_ne hx ht] at h
      rcases List.mem_cons.mp h with rfl | hs
      · have := ih (s := t) (by simp [ht])
        simp [this, Ne.symm hx]
      · exact ih (by simp [ht, hs])

theorem cut_glue {l : List Bytes} (hl : l ≠ []) (h : ∀ s ∈ l, slash ∉ s) : cut (glue l) = l := by
  induction l with
  | nil => exact absurd rfl hl
  | cons s more ih =>
    have hs : cut s = [s] := cut_of_not_mem (h s (by simp))
    cases more with
    | nil => exact hs
    | cons t rest =>
      have hrest := ih (by simp) fun u hu => h u (by simp [hu])
      simp only [glue]
      rw [cut_append_slash, hs, hrest]
      rfl

theorem extend_cases (b n : Bytes) :
    (b = [] ∧ extend b n = n) ∨ (∃ a, b = a ++ [slash] ∧ extend b n = a ++ slash :: n) ∨
      (b ≠ [] ∧ b.getLast? ≠ some slash ∧ extend b n = b ++ slash :: n) := by
  cases hb : b.getLast? with
  | none =>
    have : b = [] := List.getLast?_eq_none_iff.mp hb
    exact .inl ⟨this, by simp [extend, this]⟩
  | some x =>
    obtain ⟨a, ha⟩ := List.getLast?_eq_some_iff.mp hb
    by_cases hx : x = slash
    · exact .inr (.inl ⟨a, by rw [ha, hx], by simp [extend, ha, hx]⟩)
    · have hne : b ≠ [] := by simp [ha]
      exact .inr (.inr ⟨hne, by simpa using hx, by simp [extend, hb, hx, hne]⟩)

section Extend

variable {n : Bytes} (hn : IsName n) (b : Bytes)
include hn

theorem names_extend : names ⟨extend b n⟩ = names ⟨b⟩ ++ [n] := by
  have hcut := cut_of_not_mem hn.no_slash
  rcases extend_cases b n with ⟨hb, he⟩ | ⟨a, hb, he⟩ | ⟨-, -, he⟩ <;> rw [he, names, names]
  · rw [hb, hcut]
    simp [cut, hn.ne_nil]
  · rw [hb, cut_append_slash, cut_append_slash, hcut]
    simp [cut, hn.ne_nil]
  · rw [cut_append_slash, hcut]
    simp [hn.ne_nil]

theorem endsInSlash_extend : endsInSlash ⟨extend b n⟩ = false := by
  have hlast (a : Bytes) : (a ++ n).getLast? ≠ some slash := by
    obtain ⟨x, hx⟩ := Option.ne_none_iff_exists'.mp (mt List.getLast?_eq_none_iff.mp hn.ne_nil)
    rw [List.getLast?_append, hx]
    intro h
    have : x = slash := by simpa using h
    exact hn.no_slash (this ▸ List.mem_of_getLast? hx)
  have hne (a : Bytes) : (a ++ slash :: n).getLast? ≠ some slash := by
    have := hlast (a ++ [slash])
    simpa using this
  rcases extend_cases b n with ⟨-, he⟩ | ⟨a, -, he⟩ | ⟨-, -, he⟩ <;> rw [he, endsInSlash]
  · exact decide_eq_false (by simpa using hlast [])
  · exact decide_eq_false (hne a)
  · exact decide_eq_false (hne b)

theorem isAbsolute_extend : isAbsolute ⟨extend b n⟩ = isAbsolute ⟨b⟩ := by
  rcases extend_cases b n with ⟨hb, he⟩ | ⟨a, hb, he⟩ | ⟨hb, -, he⟩ <;>
    rw [he, isAbsolute, isAbsolute]
  · rw [hb]
    have : n.head? ≠ some slash := fun h => hn.no_slash (List.mem_of_head? h)
    simpa using this
  · rw [hb]
    cases a <;> rfl
  · obtain ⟨x, rest, hx⟩ := List.exists_cons_of_ne_nil hb
    rw [hx]
    rfl

theorem steps_extend : steps ⟨extend b n⟩ = names ⟨b⟩ ++ [n] := by
  rw [steps, names_extend hn, endsInSlash_extend hn]
  simp

end Extend

theorem dot_ne_slash : dot ≠ slash := by decide

theorem openingOf_append {b : Bytes} (tail : Bytes) (hb : b ≠ [])
    (h : b = [dot] → tail.head? = some slash) :
    openingOf (b ++ tail) = ((openingOf b).1, (openingOf b).2 ++ tail) := by
  cases b with
  | nil => exact absurd rfl hb
  | cons x r =>
    by_cases hx : x = slash
    · simp [openingOf, hx]
    · cases r with
      | nil =>
        by_cases hd : x = dot
        · have := h (by rw [hd])
          cases tail <;> simp_all [openingOf]
        · simp [openingOf, hx, hd]
      | cons y r =>
        by_cases hd : x = dot <;> by_cases hy : y = slash <;>
          simp [openingOf, hx, hd, hy, dot_ne_slash]

theorem openingOf_suffix (b : Bytes) : (openingOf b).2 <:+ b := by
  unfold openingOf
  split
  · exact List.suffix_refl _
  · split
    · exact List.suffix_cons _ _
    · split
      · exact List.suffix_cons _ _
      · exact List.suffix_refl _

theorem segments_join {dir : Path} (hdir : dir.bytes ≠ []) {n : Bytes} (hn : IsName n) :
    ∃ front, (dir.join n).segments = front ++ [n] ∧ (dir.join n).start = dir.start ∧
      front.filter (! isBlank ·) = dir.segments.filter (! isBlank ·) := by
  rcases extend_cases dir.bytes n with ⟨hb, -⟩ | ⟨a, hb, he⟩ | ⟨-, hlast, he⟩
  · exact absurd hb hdir
  · -- the directory ends in a slash, behind which its last segment is empty
    have hne : dir.bytes = [dot] → n.head? = some slash := by
      intro h
      rw [hb] at h
      have := congrArg List.getLast? h
      simp [dot_ne_slash.symm] at this
    have happend : a ++ slash :: n = dir.bytes ++ n := by rw [hb]; simp
    have hopen := openingOf_append n hdir hne
    have hsegments : (dir.join n).segments = cut ((openingOf dir.bytes).2 ++ n) := by
      rw [segments, join, he, happend, hopen]
    have hstart : (dir.join n).start = dir.start := by rw [start, join, he, happend, hopen]; rfl
    obtain ⟨pre, hpre⟩ := openingOf_suffix dir.bytes
    rcases List.eq_nil_or_concat (openingOf dir.bytes).2 with hr | ⟨r, x, hr⟩
    · refine ⟨[], ?_, hstart, ?_⟩
      · rw [hsegments, hr, List.nil_append, cut_of_not_mem hn.no_slash]
        rfl
      · rw [segments, hr]
        rfl
    · have hx : x = slash := by
        have := congrArg List.getLast? (hpre.trans hb)
        simpa [hr] using this
      refine ⟨cut r, ?_, hstart, ?_⟩
      · rw [hsegments, hr, hx, List.concat_eq_append, List.append_assoc, List.singleton_append,
          cut_append_slash, cut_of_not_mem hn.no_slash]
      · rw [segments, hr, hx, List.concat_eq_append, cut_append_slash, List.filter_append]
        simp [cut, isBlank]
  · have hopen := openingOf_append (slash :: n) hdir (fun _ => rfl)
    refine ⟨dir.segments, ?_, ?_, rfl⟩
    · rw [segments, join, he, hopen, cut_append_slash, cut_of_not_mem hn.no_slash]
      rfl
    · rw [start, join, he, hopen]
      rfl

theorem components_name {n : Bytes} (hn : IsName n) : components ⟨n⟩ = [.name n] := by
  have hc : componentOf n = .name n := by simp [componentOf, hn.ne_dots]
  have hopen : openingOf n = (.bare, n) := by
    obtain ⟨x, r, rfl⟩ := List.exists_cons_of_ne_nil hn.ne_nil
    have hslash : x ≠ slash := fun he => hn.no_slash (by simp [he])
    cases r with
    | nil =>
      have hdot : x ≠ dot := fun he => hn.ne_dot (by rw [he])
      simp [openingOf, hslash, hdot]
    | cons y r =>
      have hslash' : y ≠ slash := fun he => hn.no_slash (by simp [he])
      simp [openingOf, hslash, hslash']
  simp [components, start, segments, hopen, cut_of_not_mem hn.no_slash, hn.isBlank, hc,
    Start.components]

theorem components_extend (b : Bytes) {n : Bytes} (hn : IsName n) :
    components ⟨extend b n⟩ = components ⟨b⟩ ++ [.name n] := by
  by_cases hb : b = []
  · subst hb
    exact components_name hn
  · have hdir : (Path.mk b).bytes ≠ [] := hb
    obtain ⟨front, hs, hst, hf⟩ := segments_join hdir hn
    have hc : componentOf n = .name n := by simp [componentOf, hn.ne_dots]
    have hjoin : (Path.mk b).join n = ⟨extend b n⟩ := rfl
    rw [← hjoin, components, hs, hst, List.filter_append, hf]
    simp [components, hn.isBlank, hc]

theorem fileName_extend (b : Bytes) {n : Bytes} (hn : IsName n) :
    fileName ⟨extend b n⟩ = some n := by
  rw [fileName, components_extend b hn, List.getLast?_concat]

theorem fileName_join (dir : Path) {n : Bytes} (hn : IsName n) : (dir.join n).fileName = some n :=
  fileName_extend dir.bytes hn

theorem getLast?_of_fileName {p : Path} {n : Bytes} (h : p.fileName = some n) :
    p.components.getLast? = some (.name n) := by
  unfold fileName at h
  split at h
  · rename_i m hm
    rw [hm, Option.some.inj h]
  · simp at h

theorem isName_of_fileName {p : Path} {n : Bytes} (h : p.fileName = some n) : IsName n := by
  have hmem : Component.name n ∈ p.components := List.mem_of_getLast? (getLast?_of_fileName h)
  rw [components, List.mem_append] at hmem
  rcases hmem with hstart | hname
  · cases hs : p.start <;> simp [hs, Start.components] at hstart
  · obtain ⟨s, hs, hc⟩ := List.mem_map.mp hname
    obtain ⟨hcut, hblank⟩ := List.mem_filter.mp hs
    have hdots : s ≠ [dot, dot] := by
      intro he
      simp [componentOf, he] at hc
    have hsn : s = n := by simpa [componentOf, hdots] using hc
    rw [← hsn]
    have hblank : s ≠ [] ∧ s ≠ [dot] := by simpa [Path.isBlank] using hblank
    exact ⟨hblank.1, no_slash_of_mem_cut hcut, hblank.2, hdots⟩

theorem start_cases (p : Path) :
    (p.start = .root ∧ ∃ r, p.bytes = slash :: r ∧ p.segments = cut r) ∨
    (p.start = .here ∧ p.bytes = [dot] ∧ p.segments = [[]]) ∨
    (p.start = .here ∧ ∃ r, p.bytes = dot :: slash :: r ∧ p.segments = [] :: cut r) ∨
    (p.start = .bare ∧ p.isAbsolute = false ∧ p.segments = cut p.bytes) := by
  obtain ⟨b⟩ := p
  cases b with
  | nil => exact .inr (.inr (.inr ⟨rfl, rfl, rfl⟩))
  | cons x r =>
    by_cases hx : x = slash
    · exact .inl ⟨by simp [start, openingOf, hx], r, by simp [hx], by simp [segments, openingOf, hx]⟩
    · have habs : isAbsolute ⟨x :: r⟩ = false := by simp [isAbsolute, hx]
      by_cases hd : x = dot
      · cases r with
        | nil =>
          exact .inr (.inl ⟨by simp [start, openingOf, hd, dot_ne_slash], by rw [hd],
            by simp [segments, openingOf, hd, dot_ne_slash, cut]⟩)
        | cons y r =>
          by_cases hy : y = slash
          · exact .inr (.inr (.inl ⟨by simp [start, openingOf, hd, hy, dot_ne_slash], r,
              by rw [hd, hy], by simp [segments, openingOf, hd, hy, dot_ne_slash, cut]⟩))
          · exact .inr (.inr (.inr ⟨by simp [start, openingOf, hd, hy, dot_ne_slash], habs,
              by simp [segments, openingOf, hd, hy, dot_ne_slash]⟩))
      · exact .inr (.inr (.inr ⟨by simp [start, openingOf, hx, hd], habs,
          by simp [segments, openingOf, hx, hd]⟩))

theorem dropBlanks_append (l : List Bytes) :
    ∃ blanks, l = dropBlanks l ++ blanks ∧ ∀ s ∈ blanks, isBlank s = true := by
  refine ⟨(l.reverse.takeWhile isBlank).reverse, ?_, ?_⟩
  · have := List.takeWhile_append_dropWhile (p := isBlank) (l := l.reverse)
    have := congrArg List.reverse this
    rw [dropBlanks, ← List.reverse_append, this, List.reverse_reverse]
  · intro s hs
    exact List.all_eq_true.mp List.all_takeWhile s (List.mem_reverse.mp hs)

theorem dropBlanks_concat {n : Bytes} (hn : isBlank n = false) (l : List Bytes) :
    dropBlanks (l ++ [n]) = l ++ [n] := by
  simp [dropBlanks, hn]

theorem dropBlanks_append_blanks {blanks : List Bytes} (h : ∀ s ∈ blanks, isBlank s = true)
    (l : List Bytes) : dropBlanks (l ++ blanks) = dropBlanks l := by
  rw [dropBlanks, List.reverse_append, List.dropWhile_append_of_pos, dropBlanks]
  intro s hs
  exact h s (List.mem_reverse.mp hs)

theorem blanks_cases (l : List Bytes) :
    (∀ s ∈ l, isBlank s = true) ∨
      ∃ front n blanks, l = front ++ n :: blanks ∧ isBlank n = false ∧
        ∀ s ∈ blanks, isBlank s = true := by
  induction l using List.reverseRecOn with
  | nil => simp
  | append_singleton l s ih =>
    cases hs : isBlank s with
    | false => exact .inr ⟨l, s, [], rfl, hs, by simp⟩
    | true =>
      have hmore {l' : List Bytes} (h : ∀ x ∈ l', isBlank x = true) :
          ∀ x ∈ l' ++ [s], isBlank x = true := by
        intro x hx
        rcases List.mem_append.mp hx with hx | hx
        · exact h x hx
        · rw [List.mem_singleton.mp hx, hs]
      rcases ih with hall | ⟨front, n, blanks, rfl, hn, hblanks⟩
      · exact .inl (hmore hall)
      · exact .inr ⟨front, n, blanks ++ [s], by simp, hn, hmore hblanks⟩

def Start.names : Start → List Bytes
  | .here => [[dot]]
  | .root | .bare => []

theorem names_eq (p : Path) : p.names = p.start.names ++ p.segments.filter (! ·.isEmpty) := by
  rcases p.start_cases with ⟨hs, r, hb, hr⟩ | ⟨hs, hb, hr⟩ | ⟨hs, r, hb, hr⟩ | ⟨hs, -, hr⟩ <;>
    rw [names, hs, hr]
  · simp [hb, cut, Start.names]
  · simp [hb, cut, Start.names, dot_ne_slash]
  · simp [hb, cut_dot_slash_cons, Start.names]
  · rfl

theorem glue_cut (b : Bytes) : glue (cut b) = b := by
  induction b with
  | nil => rfl
  | cons x b ih =>
    obtain ⟨s, more, hs⟩ := List.exists_cons_of_ne_nil (cut_ne_nil b)
    rw [hs] at ih
    by_cases hx : x = slash
    · rw [hx, cut_slash_cons, hs]
      simp [glue, ih]
    · rw [cut_cons_of_ne hx hs, ← ih]
      cases more <;> rfl

theorem glue_cons (s : Bytes) {more : List Bytes} (h : more ≠ []) :
    glue (s :: more) = s ++ slash :: glue more := by
  obtain ⟨t, rest, rfl⟩ := List.exists_cons_of_ne_nil h
  rfl

theorem glue_append {front rest : List Bytes} (hfront : front ≠ []) (hrest : rest ≠ []) :
    glue (front ++ rest) = glue front ++ slash :: glue rest := by
  induction front with
  | nil => exact absurd rfl hfront
  | cons s front ih =>
    by_cases hnil : front = []
    · rw [hnil]
      exact glue_cons s hrest
    · rw [List.cons_append, glue_cons s (by simp [hnil]), glue_cons s hnil, ih hnil]
      simp

/-- A text is what opens it and its segments with slashes between them. -/
theorem bytes_eq (p : Path) : p.bytes = p.start.text ++ glue p.segments := by
  rcases p.start_cases with ⟨hs, r, hb, hr⟩ | ⟨hs, hb, hr⟩ | ⟨hs, r, hb, hr⟩ | ⟨hs, -, hr⟩ <;>
    rw [hs, hr]
  · rw [hb, glue_cut]
    rfl
  · rw [hb]
    rfl
  · rw [hb, ← cut_slash_cons, glue_cut]
    rfl
  · rw [glue_cut]
    rfl

theorem isAbsolute_iff (p : Path) : p.isAbsolute = true ↔ p.start = .root := by
  rcases p.start_cases with ⟨hs, r, hb, -⟩ | ⟨hs, hb, -⟩ | ⟨hs, r, hb, -⟩ | ⟨hs, ha, -⟩ <;> rw [hs]
  · simp [isAbsolute, hb]
  · simp [isAbsolute, hb, dot_ne_slash]
  · simp [isAbsolute, hb, dot_ne_slash]
  · simp [ha]

/-- The text of the first segments opens as the path does, and has these segments. -/
theorem front_spec {p : Path} {front rest : List Bytes} (hp : p.segments = front ++ rest)
    (hrest : rest ≠ []) :
    start ⟨p.start.text ++ glue front⟩ = p.start ∧
      segments ⟨p.start.text ++ glue front⟩ = if front = [] then [[]] else front := by
  by_cases hfront : front = []
  · subst hfront
    cases p.start <;> decide
  · rw [if_neg hfront]
    have hbytes : p.bytes = (p.start.text ++ glue front) ++ slash :: glue rest := by
      rw [p.bytes_eq, hp, glue_append hfront hrest, List.append_assoc]
    have hne : p.start.text ++ glue front ≠ [] := by
      -- otherwise the path would open with the slash
      intro hnil
      have hroot : p.start = .root := by
        rw [hnil] at hbytes
        rw [start, hbytes]
        rfl
      simp [hroot, Start.text] at hnil
    have hopen := openingOf_append (slash :: glue rest) hne fun _ => rfl
    rw [← hbytes] at hopen
    have hslash : ∀ s ∈ rest, slash ∉ s := by
      intro s hs
      have hm : s ∈ p.segments := by simp [hp, hs]
      exact no_slash_of_mem_cut hm
    refine ⟨(congrArg Prod.fst hopen).symm, ?_⟩
    have hsegments : p.segments = segments ⟨p.start.text ++ glue front⟩ ++ rest := by
      rw [segments, hopen, cut_append_slash, cut_glue hrest hslash]
      rfl
    exact List.append_cancel_right (hsegments.symm.trans hp)

/-- The text of the first segments has the names that stand there, and begins as the path does. -/
theorem parentText_spec {p : Path} {front rest : List Bytes} (hp : p.segments = front ++ rest)
    (hrest : rest ≠ []) :
    names ⟨p.start.text ++ glue front⟩ = p.start.names ++ front.filter (! ·.isEmpty) ∧
      isAbsolute ⟨p.start.text ++ glue front⟩ = p.isAbsolute := by
  obtain ⟨hstart, hsegments⟩ := front_spec hp hrest
  refine ⟨?_, by rw [Bool.eq_iff_iff, isAbsolute_iff, isAbsolute_iff, hstart]⟩
  rw [names_eq, hstart, hsegments]
  split
  · simp [*]
  · rfl

theorem components_front {p : Path} {front rest : List Bytes} (hp : p.segments = front ++ rest)
    (hrest : rest ≠ []) :
    components ⟨p.start.text ++ glue front⟩ =
      p.start.components ++ (front.filter (! isBlank ·)).map componentOf := by
  obtain ⟨hstart, hsegments⟩ := front_spec hp hrest
  rw [components, hstart, hsegments]
  split
  · simp [*, isBlank]
  · rfl

theorem filter_blanks {l : List Bytes} (h : ∀ s ∈ l, isBlank s = true) :
    l.filter (! isBlank ·) = [] := by
  rw [List.filter_eq_nil_iff]
  intro s hs
  simp [h s hs]

theorem segments_of_fileName {p : Path} {n : Bytes} (h : p.fileName = some n) :
    ∃ front blanks, p.segments = front ++ n :: blanks ∧ ∀ s ∈ blanks, isBlank s = true := by
  have hlast := getLast?_of_fileName h
  rw [components] at hlast
  rcases blanks_cases p.segments with hall | ⟨front, s, blanks, hs, hsaid, hblanks⟩
  · -- without such a segment there is nothing but what opens the path
    rw [filter_blanks hall, List.map_nil, List.append_nil] at hlast
    cases hstart : p.start <;> simp [hstart, Start.components] at hlast
  · have hname : componentOf s = .name n := by
      rw [hs, List.filter_append, List.filter_cons, if_pos (by simp [hsaid]),
        filter_blanks hblanks, List.map_append, ← List.append_assoc] at hlast
      simpa using hlast
    have hsn : s = n := by
      unfold componentOf at hname
      split at hname
      · simp at hname
      · exact Component.name.inj hname
    exact ⟨front, blanks, by rw [hs, hsn], hblanks⟩

section Beside

variable {p : Path} {front blanks : List Bytes} {n : Bytes} (hp : p.segments = front ++ n :: blanks)
  (hblanks : ∀ s ∈ blanks, isBlank s = true) (hn : IsName n)
include hp hblanks hn

/-- Neither blanks before the file name nor those behind it are in the text before it. -/
theorem parentText_eq : p.parentText = p.start.text ++ glue (dropBlanks front) := by
  have hlast : dropBlanks p.segments = front ++ [n] := by
    rw [hp, List.append_cons, dropBlanks_append_blanks hblanks, dropBlanks_concat hn.isBlank]
  rw [parentText, hlast, List.dropLast_concat]

/-- The path beside another goes the same way, without steps that go nowhere before the last. -/
theorem withFileName_spec {m : Bytes} (hm : IsName m) :
    ∃ lead dots, p.names = lead ++ dots ++ n :: blanks.filter (! ·.isEmpty) ∧
      (∀ s ∈ dots, s = [dot]) ∧
      (p.withFileName m).names = lead ++ [m] ∧ (p.withFileName m).endsInSlash = false ∧
      (p.withFileName m).isAbsolute = p.isAbsolute := by
  have htext := parentText_eq hp hblanks hn
  obtain ⟨skipped, hfront, hskipped⟩ := dropBlanks_append front
  generalize dropBlanks front = kept at hfront htext
  rw [hfront, List.append_assoc] at hp
  obtain ⟨hnames, habs⟩ := parentText_spec hp (by simp)
  refine ⟨p.start.names ++ kept.filter (! ·.isEmpty), skipped.filter (! ·.isEmpty), ?_, ?_, ?_,
    endsInSlash_extend hm _, ?_⟩
  · rw [names_eq, hp]
    simp [hn.ne_nil]
  · intro s hs
    obtain ⟨hs, hne⟩ := List.mem_filter.mp hs
    have hne : s ≠ [] := by simpa using hne
    have := hskipped s hs
    simpa [isBlank, hne] using this
  · rw [withFileName, names_extend hm, htext, hnames]
  · rw [withFileName, isAbsolute_extend hm, htext, habs]

end Beside

theorem components_parentText {p : Path} {n : Bytes} (h : p.fileName = some n) :
    p.components = components ⟨p.parentText⟩ ++ [.name n] := by
  have hn := isName_of_fileName h
  have hc : componentOf n = .name n := by simp [componentOf, hn.ne_dots]
  obtain ⟨front, blanks, hp, hblanks⟩ := segments_of_fileName h
  have htext := parentText_eq hp hblanks hn
  obtain ⟨skipped, hfront, hskipped⟩ := dropBlanks_append front
  generalize dropBlanks front = kept at hfront htext
  rw [hfront, List.append_assoc] at hp
  rw [htext, components_front hp (by simp), components, hp]
  simp [filter_blanks hskipped, filter_blanks hblanks, hn.isBlank, hc]

theorem components_of_fileName {p : Path} {n : Bytes} (h : p.fileName = some n) :
    p.components = p.components.dropLast ++ [.name n] := by
  rw [components_parentText h, List.dropLast_concat]

theorem components_withFileName {p : Path} {n m : Bytes} (h : p.fileName = some n) (hm : IsName m) :
    (p.withFileName m).components = p.components.dropLast ++ [.name m] := by
  rw [withFileName, components_extend _ hm, components_parentText h, List.dropLast_concat]

theorem parent?_components {p : Path} {n : Bytes} (h : p.fileName = some n) :
    p.parent?.map components = some p.components.dropLast := by
  have hparent : p.parent? = some ⟨p.parentText⟩ := by rw [parent?, getLast?_of_fileName h]
  rw [hparent, Option.map_some, components_parentText h, List.dropLast_concat]

/-- Where the last step is one by name, it is the file name, and the path beside goes to the same
directory. -/
theorem withFileName_names {p : Path} {n k m : Bytes} {front : List Bytes}
    (hfile : p.fileName = some n) (hnames : p.names = front ++ [k]) (hk : k ≠ [dot]) (hm : IsName m) :
    k = n ∧ ∃ lead dots, front = lead ++ dots ∧ (∀ s ∈ dots, s = [dot]) ∧
      (p.withFileName m).names = lead ++ [m] ∧ (p.withFileName m).endsInSlash = false ∧
      (p.withFileName m).isAbsolute = p.isAbsolute := by
  obtain ⟨front', blanks, hsegments, hblanks⟩ := segments_of_fileName hfile
  obtain ⟨lead, dots, hp, hdots, hq, hends, habs⟩ :=
    withFileName_spec hsegments hblanks (isName_of_fileName hfile) hm
  rw [hnames] at hp
  rcases List.eq_nil_or_concat (blanks.filter (! ·.isEmpty)) with hnil | ⟨more, s, hconcat⟩
  · rw [hnil] at hp
    obtain ⟨hfront, hlast⟩ := List.append_inj' hp rfl
    exact ⟨by simpa using hlast, lead, dots, hfront, hdots, hq, hends, habs⟩
  · -- the last step would be one that goes nowhere
    rw [List.concat_eq_append] at hconcat
    obtain ⟨hs, hne⟩ := List.mem_filter.mp (by rw [hconcat]; simp : s ∈ blanks.filter (! ·.isEmpty))
    have hdot : s = [dot] := by
      have hne : s ≠ [] := by simpa using hne
      simpa [isBlank, hne] using hblanks s hs
    rw [hconcat, ← List.cons_append, ← List.append_assoc] at hp
    have hks : [k] = [s] := (List.append_inj' hp rfl).2
    exact absurd ((List.cons.inj hks).1.trans hdot) hk

/-- The path that leads from a directory down through some names. -/
def descend (dir : Path) (sub : List Bytes) : Path := sub.foldl join dir

theorem descend_concat (dir : Path) (sub : List Bytes) (n : Bytes) :
    dir.descend (sub ++ [n]) = (dir.descend sub).join n := by
  simp [descend]

section Descend

variable {dir : Path} {sub : List Bytes} (hsub : ∀ n ∈ sub, IsName n)
include hsub

theorem names_descend : (dir.descend sub).names = dir.names ++ sub := by
  induction sub generalizing dir with
  | nil => simp [descend]
  | cons n sub ih =>
    have hrest : ((dir.join n).descend sub).names = (dir.join n).names ++ sub :=
      ih fun m hm => hsub m (by simp [hm])
    rw [descend, List.foldl_cons, ← descend, hrest, join, names_extend (hsub n (by simp))]
    simp

theorem isAbsolute_descend : (dir.descend sub).isAbsolute = dir.isAbsolute := by
  induction sub generalizing dir with
  | nil => rfl
  | cons n sub ih =>
    have hrest : ((dir.join n).descend sub).isAbsolute = (dir.join n).isAbsolute :=
      ih fun m hm => hsub m (by simp [hm])
    rw [descend, List.foldl_cons, ← descend, hrest, join, isAbsolute_extend (hsub n (by simp))]

theorem bytes_descend_ne_nil (hdir : dir.bytes ≠ []) : (dir.descend sub).bytes ≠ [] := by
  induction sub generalizing dir with
  | nil => exact hdir
  | cons n sub ih =>
    have hjoin : (dir.join n).bytes ≠ [] → ((dir.join n).descend sub).bytes ≠ [] :=
      ih fun m hm => hsub m (by simp [hm])
    apply hjoin
    rw [join]
    rcases extend_cases dir.bytes n with ⟨hb, -⟩ | ⟨a, -, he⟩ | ⟨-, -, he⟩
    · exact absurd hb hdir
    · simp [he]
    · simp [he]

theorem steps_descend (hne : sub ≠ []) : (dir.descend sub).steps = dir.names ++ sub := by
  obtain ⟨front, n, hconcat⟩ := (List.eq_nil_or_concat sub).resolve_left hne
  rw [List.concat_eq_append] at hconcat
  subst hconcat
  have hfront : ∀ m ∈ front, IsName m := fun m hm => hsub m (by simp [hm])
  rw [descend_concat, join, steps_extend (hsub n (by simp)), names_descend hfront, List.append_assoc]

theorem components_descend :
    (dir.descend sub).components = dir.components ++ sub.map .name := by
  induction sub using List.reverseRecOn with
  | nil => simp [descend]
  | append_singleton sub n ih =>
    have hsub' : ∀ m ∈ sub, IsName m := fun m hm => hsub m (by simp [hm])
    rw [descend_concat, join, components_extend _ (hsub n (by simp)), ih hsub']
    simp

end Descend

end RecordingDelivery.Path
