import RecordingDelivery.Proofs.Files.Path

/-!
Where a walk leads when a tree changes. A walk to a directory sees directories and follows links; it
leads there still while these links are what they were, and nowhere once one of them is a file.
-/
namespace RecordingDelivery.Tree

/-- The links that a walk follows, by their locations. -/
def linksOn (t : Tree) : Nat → Location → List Bytes → List Location
  | _, _, [] => []
  | links, dir, step :: rest =>
    if step = [] ∨ step = [Path.dot] then linksOn t links dir rest
    else if step = [Path.dot, Path.dot] then linksOn t links dir.dropLast rest
    else match t.get? (dir ++ [step]) with
      | some .directory => linksOn t links (dir ++ [step]) rest
      | some (.link target) => match links with
        | 0 => []
        | links + 1 =>
          (dir ++ [step]) :: linksOn t links (start target dir) (target.steps ++ rest)
      | _ => []
termination_by links _ steps => (links, steps.length)

/-- The links on the way to where a path leads. -/
def linksTo (t : Tree) (p : Path) : List Location :=
  t.linksOn linkLimit (start p t.workDir) p.steps

variable {t t' : Tree}

section Steps

variable {links : Nat} {dir : Location} {step : Bytes} {rest : List Bytes}

theorem walk_stay (h : step = [] ∨ step = [Path.dot]) :
    t.walk .target links dir (step :: rest) = t.walk .target links dir rest := by
  rw [walk, if_pos h]

theorem walk_up (h : ¬ (step = [] ∨ step = [Path.dot])) (hup : step = [Path.dot, Path.dot]) :
    t.walk .target links dir (step :: rest) = t.walk .target links dir.dropLast rest := by
  rw [walk, if_neg h, if_pos hup]

variable (h : ¬ (step = [] ∨ step = [Path.dot])) (hup : ¬ step = [Path.dot, Path.dot])
include h hup

theorem walk_too_long (hlong : nameLimit < step.length) :
    t.walk .target links dir (step :: rest) = .error .nameTooLong := by
  rw [walk, if_neg h, if_neg hup, if_neg (by simp), if_pos hlong]

theorem walk_into (hlong : ¬ nameLimit < step.length)
    (hget : t.get? (dir ++ [step]) = some .directory) :
    t.walk .target links dir (step :: rest) = t.walk .target links (dir ++ [step]) rest := by
  rw [walk, if_neg h, if_neg hup, if_neg (by simp), if_neg hlong]
  simp only [hget]

theorem walk_follow (hlong : ¬ nameLimit < step.length) {target : Path}
    (hget : t.get? (dir ++ [step]) = some (.link target)) :
    t.walk .target (links + 1) dir (step :: rest) =
      t.walk .target links (start target dir) (target.steps ++ rest) := by
  rw [walk, if_neg h, if_neg hup, if_neg (by simp), if_neg hlong]
  simp [hget]

theorem walk_no_more_links (hlong : ¬ nameLimit < step.length) {target : Path}
    (hget : t.get? (dir ++ [step]) = some (.link target)) :
    t.walk .target 0 dir (step :: rest) = .error .tooManyLinks := by
  rw [walk, if_neg h, if_neg hup, if_neg (by simp), if_neg hlong]
  simp [hget]

theorem walk_end (hlong : ¬ nameLimit < step.length)
    (hdir : t.get? (dir ++ [step]) ≠ some .directory)
    (hlink : ∀ target, t.get? (dir ++ [step]) ≠ some (.link target)) :
    t.walk .target links dir (step :: rest) =
      if rest.isEmpty then .ok (dir ++ [step])
      else if t.get? (dir ++ [step]) = none then .error .notFound else .error .notDirectory := by
  rw [walk, if_neg h, if_neg hup, if_neg (by simp), if_neg hlong]
  cases hget : t.get? (dir ++ [step]) with
  | none => simp [hget]
  | some e =>
    cases e with
    | directory => exact absurd hget hdir
    | link target => exact absurd hget (hlink target)
    | file c | pipe => simp [hget]

theorem short_of_walk {l : Location} (hwalk : t.walk .target links dir (step :: rest) = .ok l) :
    ¬ nameLimit < step.length := by
  intro hlong
  rw [walk_too_long h hup hlong] at hwalk
  simp at hwalk

end Steps

/-- Only what comes at the end decides where a walk leads that is the same before. -/
theorem walk_append_congr {r r' : List Bytes} (hr : r ≠ []) (hr' : r' ≠ [])
    (h : ∀ links dir, t.walk .target links dir r = t.walk .target links dir r') (links : Nat)
    (dir : Location) (steps : List Bytes) :
    t.walk .target links dir (steps ++ r) = t.walk .target links dir (steps ++ r') := by
  fun_induction linksOn t links dir steps with
  | case1 => exact h _ _
  | case2 links dir step rest hs ih =>
    rw [List.cons_append, List.cons_append, walk_stay hs, walk_stay hs, ih]
  | case3 links dir rest hs ih =>
    rw [List.cons_append, List.cons_append, walk_up hs rfl, walk_up hs rfl, ih]
  | case4 links dir step rest hs hup hget ih =>
    rw [List.cons_append, List.cons_append]
    by_cases hlong : nameLimit < step.length
    · rw [walk_too_long hs hup hlong, walk_too_long hs hup hlong]
    · rw [walk_into hs hup hlong hget, walk_into hs hup hlong hget, ih]
  | case5 dir step rest hs hup target hget =>
    rw [List.cons_append, List.cons_append]
    by_cases hlong : nameLimit < step.length
    · rw [walk_too_long hs hup hlong, walk_too_long hs hup hlong]
    · rw [walk_no_more_links hs hup hlong hget, walk_no_more_links hs hup hlong hget]
  | case6 dir step rest hs hup target hget links ih =>
    rw [List.cons_append, List.cons_append]
    by_cases hlong : nameLimit < step.length
    · rw [walk_too_long hs hup hlong, walk_too_long hs hup hlong]
    · rw [walk_follow hs hup hlong hget, walk_follow hs hup hlong hget, ← List.append_assoc,
        ← List.append_assoc, ih]
  | case7 links dir step rest hs hup hdir hlink =>
    rw [List.cons_append, List.cons_append]
    by_cases hlong : nameLimit < step.length
    · rw [walk_too_long hs hup hlong, walk_too_long hs hup hlong]
    · rw [walk_end hs hup hlong hdir hlink, walk_end hs hup hlong hdir hlink]
      simp [hr, hr']

theorem link_of_mem_linksOn {links : Nat} {dir : Location} {steps : List Bytes} {m : Location}
    (h : m ∈ t.linksOn links dir steps) : ∃ target, t.get? m = some (.link target) := by
  fun_induction linksOn t links dir steps with
  | case1 | case5 | case7 => simp at h
  | case2 links dir step rest hs ih => exact ih h
  | case3 links dir rest hs ih => exact ih h
  | case4 links dir step rest hs hup hget ih => exact ih h
  | case6 dir step rest hs hup target hget links ih =>
    rcases List.mem_cons.mp h with rfl | h
    · exact ⟨target, hget⟩
    · exact ih h

/-- A tree in which all directories of another are still directories, and what the links of a walk
were. -/
theorem walk_stable {links : Nat} {dir l : Location} {steps : List Bytes}
    (hdirs : ∀ m, t.get? m = some .directory → t'.get? m = some .directory)
    (hlinks : ∀ m ∈ t.linksOn links dir steps, t'.get? m = t.get? m)
    (hwalk : t.walk .target links dir steps = .ok l) (hl : t.get? l = some .directory) :
    t'.walk .target links dir steps = .ok l ∧
      ∃ left, ∀ more, more ≠ [] →
        t.walk .target links dir (steps ++ more) = t.walk .target left l more ∧
        t'.walk .target links dir (steps ++ more) = t'.walk .target left l more := by
  fun_induction linksOn t links dir steps with
  | case1 links dir =>
    have : dir = l := by simpa [walk] using hwalk
    subst this
    exact ⟨by rw [walk], links, fun more _ => ⟨rfl, rfl⟩⟩
  | case2 links dir step rest hs ih =>
    rw [walk_stay hs] at hwalk
    obtain ⟨h, left, hmore⟩ := ih hlinks hwalk
    refine ⟨by rw [walk_stay hs, h], left, ?_⟩
    intro more hne
    rw [List.cons_append, walk_stay hs, walk_stay hs]
    exact hmore more hne
  | case3 links dir rest hs ih =>
    rw [walk_up hs rfl] at hwalk
    obtain ⟨h, left, hmore⟩ := ih hlinks hwalk
    refine ⟨by rw [walk_up hs rfl, h], left, ?_⟩
    intro more hne
    rw [List.cons_append, walk_up hs rfl, walk_up hs rfl]
    exact hmore more hne
  | case4 links dir step rest hs hup hget ih =>
    have hlong := short_of_walk hs hup hwalk
    have hget' := hdirs _ hget
    rw [walk_into hs hup hlong hget] at hwalk
    obtain ⟨h, left, hmore⟩ := ih hlinks hwalk
    refine ⟨by rw [walk_into hs hup hlong hget', h], left, ?_⟩
    intro more hne
    rw [List.cons_append, walk_into hs hup hlong hget, walk_into hs hup hlong hget']
    exact hmore more hne
  | case5 dir step rest hs hup target hget =>
    have hlong := short_of_walk hs hup hwalk
    rw [walk_no_more_links hs hup hlong hget] at hwalk
    simp at hwalk
  | case6 dir step rest hs hup target hget links ih =>
    have hlong := short_of_walk hs hup hwalk
    have hget' : t'.get? (dir ++ [step]) = some (.link target) := by
      rw [hlinks _ (by simp), hget]
    rw [walk_follow hs hup hlong hget] at hwalk
    obtain ⟨h, left, hmore⟩ := ih (fun m hm => hlinks m (by simp [hm])) hwalk
    refine ⟨by rw [walk_follow hs hup hlong hget', h], left, ?_⟩
    intro more hne
    rw [List.cons_append, walk_follow hs hup hlong hget, walk_follow hs hup hlong hget',
      ← List.append_assoc]
    exact hmore more hne
  | case7 links dir step rest hs hup hdir hlink =>
    have hlong := short_of_walk hs hup hwalk
    -- such a walk ends at what is no directory
    rw [walk_end hs hup hlong hdir hlink] at hwalk
    split at hwalk
    · have : dir ++ [step] = l := by simpa using hwalk
      exact absurd (this ▸ hl) hdir
    · split at hwalk <;> simp at hwalk

/-- A tree in which one of the links of a walk is a file now. -/
theorem walk_broken {links : Nat} {dir l : Location} {steps : List Bytes}
    (hdirs : ∀ m, t.get? m = some .directory → t'.get? m = some .directory)
    (hlinks : ∀ m ∈ t.linksOn links dir steps, t'.get? m = t.get? m ∨ ∃ c, t'.get? m = some (.file c))
    (hbroken : ∃ m ∈ t.linksOn links dir steps, ∃ c, t'.get? m = some (.file c))
    (hwalk : t.walk .target links dir steps = .ok l) :
    (∀ more, more ≠ [] →
      t'.walk .target links dir (steps ++ more) = .error .notDirectory) ∧
    (∀ m, t'.walk .target links dir steps = .ok m → ∃ c, t'.get? m = some (.file c)) := by
  fun_induction linksOn t links dir steps with
  | case1 | case5 | case7 => simp at hbroken
  | case2 links dir step rest hs ih =>
    rw [walk_stay hs] at hwalk
    obtain ⟨hmore, hend⟩ := ih hlinks hbroken hwalk
    refine ⟨?_, by rw [walk_stay hs]; exact hend⟩
    intro more hne
    rw [List.cons_append, walk_stay hs, hmore more hne]
  | case3 links dir rest hs ih =>
    rw [walk_up hs rfl] at hwalk
    obtain ⟨hmore, hend⟩ := ih hlinks hbroken hwalk
    refine ⟨?_, by rw [walk_up hs rfl]; exact hend⟩
    intro more hne
    rw [List.cons_append, walk_up hs rfl, hmore more hne]
  | case4 links dir step rest hs hup hget ih =>
    have hlong := short_of_walk hs hup hwalk
    have hget' := hdirs _ hget
    rw [walk_into hs hup hlong hget] at hwalk
    obtain ⟨hmore, hend⟩ := ih hlinks hbroken hwalk
    refine ⟨?_, by rw [walk_into hs hup hlong hget']; exact hend⟩
    intro more hne
    rw [List.cons_append, walk_into hs hup hlong hget', hmore more hne]
  | case6 dir step rest hs hup target hget links ih =>
    have hlong := short_of_walk hs hup hwalk
    rw [walk_follow hs hup hlong hget] at hwalk
    rcases hlinks (dir ++ [step]) (by simp) with hsame | ⟨c, hfile⟩
    · -- this link is still there, so that it is a later one
      have hget' : t'.get? (dir ++ [step]) = some (.link target) := by rw [hsame, hget]
      have hlater : ∃ m ∈ t.linksOn links (start target dir) (target.steps ++ rest),
          ∃ c, t'.get? m = some (.file c) := by
        obtain ⟨m, hm, c, hc⟩ := hbroken
        rcases List.mem_cons.mp hm with rfl | hm
        · rw [hget'] at hc
          simp at hc
        · exact ⟨m, hm, c, hc⟩
      obtain ⟨hmore, hend⟩ := ih (fun m hm => hlinks m (by simp [hm])) hlater hwalk
      refine ⟨?_, by rw [walk_follow hs hup hlong hget']; exact hend⟩
      intro more hne
      rw [List.cons_append, walk_follow hs hup hlong hget', ← List.append_assoc, hmore more hne]
    · have hend (more : List Bytes) : t'.walk .target (links + 1) dir (step :: more) =
          if more.isEmpty then .ok (dir ++ [step]) else .error .notDirectory := by
        rw [walk_end hs hup hlong (by simp [hfile]) (by simp [hfile])]
        simp [hfile]
      refine ⟨?_, ?_⟩
      · intro more hne
        rw [List.cons_append, hend]
        simp [hne]
      · intro m hm
        rw [hend] at hm
        split at hm
        · have : dir ++ [step] = m := by simpa using hm
          exact ⟨c, this ▸ hfile⟩
        · simp at hm

theorem walk_down {links : Nat} {l : Location} {sub : List Bytes} (more : List Bytes)
    (hsub : ∀ n ∈ sub, Path.IsName n)
    (hdirs : ∀ front back, sub = front ++ back → front ≠ [] → t.get? (l ++ front) = some .directory) :
    t.walk .target links l (sub ++ more) =
      if ∀ n ∈ sub, n.length ≤ nameLimit then t.walk .target links (l ++ sub) more
      else .error .nameTooLong := by
  induction sub generalizing l with
  | nil => simp
  | cons n sub ih =>
    have hn := hsub n (by simp)
    have hstay : ¬ (n = [] ∨ n = [Path.dot]) := by
      rintro (h | h)
      · exact hn.ne_nil h
      · exact hn.ne_dot h
    rw [List.cons_append]
    by_cases hlong : nameLimit < n.length
    · rw [walk_too_long hstay hn.ne_dots hlong, if_neg]
      intro h
      have := h n (by simp)
      omega
    · have hget : t.get? (l ++ [n]) = some .directory := hdirs [n] sub rfl (by simp)
      have hnext := ih (l := l ++ [n]) (fun m hm => hsub m (by simp [hm])) (by
        intro front back hfront hne
        rw [List.append_assoc]
        exact hdirs (n :: front) back (by rw [hfront]; rfl) (by simp))
      rw [walk_into hstay hn.ne_dots hlong hget, hnext, List.append_assoc]
      have : (∀ m ∈ n :: sub, m.length ≤ nameLimit) ↔ ∀ m ∈ sub, m.length ≤ nameLimit := by
        simp [Nat.not_lt.mp hlong]
      simp only [this]
      rfl

end RecordingDelivery.Tree
