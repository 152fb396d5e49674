import RecordingDelivery.Proofs.Files.Tree
import RecordingDelivery.Proofs.Files.Walk

/-!
What a call that succeeds has done. A path leads to what stands under its last name in the directory
before it; that is removed, or it stands under another name and all that was there is gone.
-/
namespace RecordingDelivery

theorem bind_ok {ε α β : Type} {x : Except ε α} {f : α → Except ε β} {b : β}
    (h : x >>= f = .ok b) : ∃ a, x = .ok a ∧ f a = .ok b := by
  cases x with
  | error fault => simp [bind, Except.bind] at h
  | ok a => exact ⟨a, rfl, h⟩

namespace Tree

variable {t t' : Tree}

theorem find_eq_ok_iff {purpose : Purpose} {p : Path} {l : Location} {e : Entry} :
    t.find purpose p = .ok (l, e) ↔
      checkText p = .ok () ∧ t.walk purpose linkLimit (start p t.workDir) p.steps = .ok l ∧
        t.get? l = some e := by
  unfold find resolve
  cases checkText p with
  | error fault => simp [bind, Except.bind]
  | ok u =>
    cases t.walk purpose linkLimit (start p t.workDir) p.steps with
    | error fault => simp [bind, Except.bind]
    | ok m =>
      by_cases hml : m = l
      · subst hml
        cases hm : t.get? m <;> simp [bind, Except.bind, hm]
      · cases hm : t.get? m <;> simp [bind, Except.bind, hm, hml]

theorem isPresent_eq_false {p : Path} :
    t.isPresent p = false ↔ t.find .target p = .error .notFound := by
  unfold isPresent
  split <;> simp_all

theorem checkName_ok {n : Bytes} {u : Unit} : checkName n = .ok u ↔ n.length ≤ nameLimit := by
  unfold checkName
  split
  · simp
    omega
  · simp
    omega

/-- The last step of a path by its name, and the walk to the directory in which it is taken. -/
theorem names_of_parent {p : Path} {dir : Location} {n : Bytes}
    (h : t.parent p = .ok (dir, .name n)) :
    Path.IsName n ∧ checkText p = .ok () ∧ ∃ front, p.names = front ++ [n] ∧
      t.walk .target linkLimit (start p t.workDir) (front ++ [[]]) = .ok dir := by
  obtain ⟨_, hcheck, h⟩ := bind_ok h
  obtain ⟨dir', hwalk, h⟩ := bind_ok h
  cases hlast : p.names.getLast? with
  | none => simp [hlast] at h
  | some m =>
    simp only [hlast, Except.ok.injEq, Prod.mk.injEq] at h
    obtain ⟨rfl, hname⟩ := h
    split at hname
    · simp at hname
    · rename_i hdots
      obtain rfl := Last.name.inj hname
      obtain ⟨front, hfront⟩ := List.getLast?_eq_some_iff.mp hlast
      obtain ⟨hcut, hne⟩ := List.mem_filter.mp (by rw [← Path.names, hfront]; simp : m ∈ _)
      rw [hfront, List.dropLast_concat] at hwalk
      refine ⟨⟨by simpa using hne, Path.no_slash_of_mem_cut hcut, fun he => hdots (.inl he),
        fun he => hdots (.inr he)⟩, hcheck, front, hfront, hwalk⟩

/-- Whatever steps follow those that are given, a walk goes on from a location, or it has ended for want
of something on the way. -/
def Passes (t : Tree) (links : Nat) (dir : Location) (front : List Bytes) (l : Location) : Prop :=
  (∃ left, ∀ purpose more, purpose ≠ .creation → more ≠ [] →
    t.walk purpose links dir (front ++ more) = t.walk purpose left l more) ∨
  (∀ purpose more, purpose ≠ .creation → more ≠ [] →
    t.walk purpose links dir (front ++ more) = .error .notFound)

theorem Passes.after {links links' : Nat} {dir dir' l : Location} {front front' : List Bytes}
    (h : t.Passes links' dir' front' l)
    (hon : ∀ purpose more, purpose ≠ .creation → more ≠ [] →
      t.walk purpose links dir (front ++ more) = t.walk purpose links' dir' (front' ++ more)) :
    t.Passes links dir front l := by
  refine h.imp (fun ⟨left, h⟩ => ⟨left, fun purpose more hp hne => ?_⟩)
    fun h purpose more hp hne => ?_
  · rw [hon purpose more hp hne, h purpose more hp hne]
  · rw [hon purpose more hp hne, h purpose more hp hne]

/-- The tree is another one but for what is gone, which was no directory. -/
def Lacks (t' t : Tree) : Prop :=
  ∀ m, t'.get? m = t.get? m ∨ (t.get? m ≠ some .directory ∧ t'.get? m = none)

theorem passes_of_walk {links : Nat} {dir l : Location} {front : List Bytes} (hlacks : t'.Lacks t)
    (hwalk : t.walk .target links dir (front ++ [[]]) = .ok l) : t'.Passes links dir front l := by
  fun_induction linksOn t links dir front with
  | case1 links dir =>
    have : dir = l := by simpa [walk] using hwalk
    subst this
    exact .inl ⟨links, fun purpose more _ _ => rfl⟩
  | case2 links dir step rest hs ih =>
    rw [List.cons_append, walk_stay hs] at hwalk
    refine (ih hwalk).after fun purpose more _ _ => ?_
    rw [List.cons_append, walk, if_pos hs]
  | case3 links dir rest hs ih =>
    rw [List.cons_append, walk_up hs rfl] at hwalk
    refine (ih hwalk).after fun purpose more _ _ => ?_
    rw [List.cons_append, walk, if_neg hs, if_pos rfl]
  | case4 links dir step rest hs hup hget ih =>
    have hlong := short_of_walk hs hup hwalk
    have hget' : t'.get? (dir ++ [step]) = some .directory := by
      rcases hlacks (dir ++ [step]) with hsame | ⟨hdir, -⟩
      · rw [hsame, hget]
      · exact absurd hget hdir
    rw [List.cons_append, walk_into hs hup hlong hget] at hwalk
    refine (ih hwalk).after fun purpose more hp _ => ?_
    rw [List.cons_append, walk, if_neg hs, if_neg hup, if_neg (by simp [hp]), if_neg hlong]
    simp only [hget']
  | case5 dir step rest hs hup target hget =>
    have hlong := short_of_walk hs hup hwalk
    rw [List.cons_append, walk_no_more_links hs hup hlong hget] at hwalk
    simp at hwalk
  | case6 dir step rest hs hup target hget links ih =>
    have hlong := short_of_walk hs hup hwalk
    rw [List.cons_append, walk_follow hs hup hlong hget, ← List.append_assoc] at hwalk
    rcases hlacks (dir ++ [step]) with hsame | ⟨-, hnone⟩
    · have hget' : t'.get? (dir ++ [step]) = some (.link target) := by rw [hsame, hget]
      refine (ih hwalk).after fun purpose more hp hne => ?_
      rw [List.cons_append, walk, if_neg hs, if_neg hup, if_neg (by simp [hp]), if_neg hlong]
      simp [hget', hne]
    · -- the link itself is gone
      refine .inr fun purpose more hp hne => ?_
      rw [List.cons_append, walk, if_neg hs, if_neg hup, if_neg (by simp [hp]), if_neg hlong]
      simp [hnone, hne]
  | case7 links dir step rest hs hup hdir hlink =>
    have hlong := short_of_walk hs hup hwalk
    rw [List.cons_append, walk_end hs hup hlong hdir hlink] at hwalk
    simp at hwalk
    split at hwalk <;> simp at hwalk

/-- The last step of a walk by a name, which may be followed by the step that asks for a directory. -/
theorem walk_last (links : Nat) {dir : Location} {n : Bytes} (hn : Path.IsName n)
    (hshort : n.length ≤ nameLimit) {asks : Bool}
    (hasks : asks = true → t.get? (dir ++ [n]) = none ∨ t.get? (dir ++ [n]) = some .directory) :
    t.walk .entry links dir (n :: if asks then [[]] else []) =
      if asks = true ∧ t.get? (dir ++ [n]) = none then .error .notFound else .ok (dir ++ [n]) := by
  have hstay : ¬ (n = [] ∨ n = [Path.dot]) := by
    rintro (h | h)
    · exact hn.ne_nil h
    · exact hn.ne_dot h
  rw [walk, if_neg hstay, if_neg hn.ne_dots, if_neg (by simp), if_neg (by omega)]
  cases asks with
  | false =>
    cases hget : t.get? (dir ++ [n]) with
    | none => simp [hget]
    | some e => cases e <;> simp [hget, walk]
  | true =>
    rcases hasks rfl with hget | hget
    · simp [hget]
    · simp [hget, walk]

section Parent

variable {p : Path} {dir : Location} {n : Bytes} (hparent : t.parent p = .ok (dir, .name n))
  (hshort : n.length ≤ nameLimit)
include hparent hshort

theorem resolve_of_parent
    (hends : p.endsInSlash = true → t.get? (dir ++ [n]) = some .directory) :
    t.resolve .entry p = .ok (dir ++ [n]) := by
  obtain ⟨hn, hcheck, front, hnames, hwalk⟩ := names_of_parent hparent
  rcases passes_of_walk (fun m => .inl rfl) hwalk with ⟨left, hon⟩ | hnone
  · have hlast := walk_last (t := t) left hn hshort fun h => .inr (hends h)
    rw [resolve, hcheck, Path.steps, hnames, List.append_assoc]
    refine (hon .entry _ (by simp) (by simp)).trans (hlast.trans (if_neg ?_))
    rintro ⟨h, hget⟩
    simp [hends h] at hget
  · rw [hnone .target [[]] (by simp) (by simp)] at hwalk
    simp at hwalk

theorem find_of_parent {e : Entry} (hget : t.get? (dir ++ [n]) = some e)
    (hends : e ≠ .directory → p.endsInSlash = false) :
    t.find .entry p = .ok (dir ++ [n], e) := by
  have hresolve := resolve_of_parent hparent hshort fun h => by
    have hdir : e = .directory := by
      by_contra hne
      simp [hends hne] at h
    rw [hget, hdir]
  rw [find, hresolve]
  simp [bind, Except.bind, hget]

/-- It leads to nothing once nothing is there, even if a link on the way is gone, too. -/
theorem find_of_lacks (hlacks : t'.Lacks t) (hdir : t'.workDir = t.workDir)
    (hnone : t'.get? (dir ++ [n]) = none) : t'.find .entry p = .error .notFound := by
  obtain ⟨hn, hcheck, front, hnames, hwalk⟩ := names_of_parent hparent
  have hresolve : t'.resolve .entry p = t'.walk .entry linkLimit (start p t.workDir)
      (front ++ (n :: if p.endsInSlash then [[]] else [])) := by
    rw [resolve, hcheck, Path.steps, hnames, List.append_assoc, hdir]
    rfl
  rw [find, hresolve]
  rcases passes_of_walk hlacks hwalk with ⟨left, hon⟩ | hgone
  · rw [hon .entry _ (by simp) (by simp), walk_last left hn hshort fun _ => .inl hnone]
    split
    · rfl
    · simp [bind, Except.bind, hnone]
  · rw [hgone .entry _ (by simp) (by simp)]
    rfl

end Parent

theorem unlink_ok {p : Path} (h : t.unlink p = .ok t') :
    ∃ dir n e, t.parent p = .ok (dir, .name n) ∧ n.length ≤ nameLimit ∧
      t.get? (dir ++ [n]) = some e ∧ e ≠ .directory ∧ p.endsInSlash = false ∧
      t' = t.drop (dir ++ [n]) := by
  obtain ⟨⟨dir, last⟩, hparent, h⟩ := bind_ok h
  cases last with
  | special => simp at h
  | name n =>
    obtain ⟨_, hname, h⟩ := bind_ok h
    cases hget : t.get? (dir ++ [n]) with
    | none => simp [hget] at h
    | some e =>
      cases e with
      | directory => simp [hget] at h
      | file c | link target | pipe =>
        simp only [hget] at h
        split at h
        · simp at h
        · rename_i hends
          exact ⟨dir, n, _, hparent, checkName_ok.mp hname, hget, by simp, by simpa using hends,
            (Except.ok.inj h).symm⟩

theorem replaceFault?_directory {e : Entry} {k : Location} (h : t.replaceFault? e k = none)
    (hk : t.get? k = some .directory) : e = .directory ∧ t.isEmptyDirectory k = true := by
  unfold replaceFault? at h
  simp only [hk] at h
  split at h
  · simp at h
  · rename_i he
    split at h
    · exact ⟨not_not.mp he, ‹_›⟩
    · simp at h

/-- What is renamed is there, and either it has the new name already, be it as one of several, or the
two places are apart and nothing forbids the one to take the place of the other. -/
theorem rename_ok {p q : Path} (h : t.rename p q = .ok t') :
    ∃ dir n dir' m e, t.parent p = .ok (dir, .name n) ∧ n.length ≤ nameLimit ∧
      t.parent q = .ok (dir', .name m) ∧ m.length ≤ nameLimit ∧
      t.get? (dir ++ [n]) = some e ∧
      (e ≠ .directory → p.endsInSlash = false ∧ q.endsInSlash = false) ∧
      (((dir ++ [n] = dir' ++ [m] ∨ t.isTwin (dir ++ [n]) (dir' ++ [m]) = true) ∧ t' = t) ∨
        (t.isTwin (dir ++ [n]) (dir' ++ [m]) = false ∧
          ¬ dir ++ [n] <+: dir' ++ [m] ∧ ¬ dir' ++ [m] <+: dir ++ [n] ∧
          t.replaceFault? e (dir' ++ [m]) = none ∧ t' = t.move (dir ++ [n]) (dir' ++ [m]))) := by
  obtain ⟨-, -, h⟩ := bind_ok h
  obtain ⟨-, -, h⟩ := bind_ok h
  obtain ⟨⟨dir, last⟩, hparent, h⟩ := bind_ok h
  obtain ⟨⟨dir', last'⟩, hparent', h⟩ := bind_ok h
  cases last with
  | special => simp at h
  | name n =>
    cases last' with
    | special => simp at h
    | name m =>
      obtain ⟨_, hname, h⟩ := bind_ok h
      cases hget : t.get? (dir ++ [n]) with
      | none => simp [hget] at h
      | some e =>
        simp only [hget] at h
        obtain ⟨_, hname', h⟩ := bind_ok h
        refine ⟨dir, n, dir', m, e, hparent, checkName_ok.mp hname, hparent',
          checkName_ok.mp hname', hget, ?_⟩
        split at h
        · simp at h
        rename_i hends
        refine ⟨fun hfile => by simpa [hfile] using hends, ?_⟩
        split at h
        · exact .inl ⟨‹_›, (Except.ok.inj h).symm⟩
        rename_i hapart
        split at h
        · simp at h
        rename_i hlk
        split at h
        · simp at h
        rename_i hkl
        cases hfault : t.replaceFault? e (dir' ++ [m]) with
        | some fault => simp [hfault] at h
        | none =>
          rw [hfault] at h
          rw [List.isPrefixOf_iff_prefix] at hlk hkl
          have htwin : t.isTwin (dir ++ [n]) (dir' ++ [m]) = false := by
            simpa using (not_or.mp hapart).2
          exact .inr ⟨htwin, hlk, hkl, rfl, (Except.ok.inj h).symm⟩

end Tree
end RecordingDelivery
