import Mathlib.Data.List.Nodup
import RecordingDelivery.Schedule.Basic

/-!
The order in a schedule. The heap keeps its least ticket at the root, every ticket has a number of
its own, and the paths are those of the tickets; so a schedule is a sorted list of tickets, from which
the head is taken and into which a new ticket goes behind all of its date.
-/
namespace RecordingDelivery

namespace Heap

variable {α : Type} {le : α → α → Bool}

def Ordered (le : α → α → Bool) : Heap α → Prop
  | leaf => True
  | node _ top left right =>
    (∀ x ∈ left.toList, le top x = true) ∧ (∀ x ∈ right.toList, le top x = true) ∧
      Ordered le left ∧ Ordered le right

theorem ordered_join {top : α} {a b : Heap α} (ha : Ordered le a) (hb : Ordered le b)
    (hta : ∀ x ∈ a.toList, le top x = true) (htb : ∀ x ∈ b.toList, le top x = true) :
    Ordered le (join top a b) := by
  unfold join
  split
  · exact ⟨hta, htb, ha, hb⟩
  · exact ⟨htb, hta, hb, ha⟩

theorem ordered_merge (trans : ∀ a b c, le a b = true → le b c = true → le a c = true)
    (total : ∀ a b, (le a b || le b a) = true) (a b : Heap α)
    (ha : Ordered le a) (hb : Ordered le b) : Ordered le (merge le a b) := by
  fun_induction merge le a b with
  | case1 b => exact hb
  | case2 a => exact ha
  | case3 rank x left right rank' y left' right' h ih =>
    obtain ⟨hxl, hxr, hl, hr⟩ := ha
    apply ordered_join hl (ih hr hb) hxl
    intro z hz
    rcases List.mem_append.mp ((toList_merge le _ _).mem_iff.mp hz) with hz | hz
    · exact hxr z hz
    · -- below `y`, which `x` precedes
      rcases List.mem_cons.mp hz with rfl | hz
      · exact h
      · have hy : le y z = true := by
          rcases List.mem_append.mp hz with hz | hz
          · exact hb.1 z hz
          · exact hb.2.1 z hz
        exact trans x y z h hy
  | case4 rank x left right rank' y left' right' h ih =>
    have hyx : le y x = true := by
      have := total x y
      simpa [h] using this
    obtain ⟨hyl, hyr, hl, hr⟩ := hb
    apply ordered_join hl (ih ha hr) hyl
    intro z hz
    rcases List.mem_append.mp ((toList_merge le _ _).mem_iff.mp hz) with hz | hz
    · rcases List.mem_cons.mp hz with rfl | hz
      · exact hyx
      · have hx : le x z = true := by
          rcases List.mem_append.mp hz with hz | hz
          · exact ha.1 z hz
          · exact ha.2.1 z hz
        exact trans y x z hyx hx
    · exact hyr z hz

theorem ordered_insert (trans : ∀ a b c, le a b = true → le b c = true → le a c = true)
    (total : ∀ a b, (le a b || le b a) = true) (x : α) {h : Heap α} (hh : Ordered le h) :
    Ordered le (insert le x h) :=
  ordered_merge trans total _ _ (by simp [Ordered, toList]) hh

theorem ordered_rest (trans : ∀ a b c, le a b = true → le b c = true → le a c = true)
    (total : ∀ a b, (le a b || le b a) = true) {h : Heap α} (hh : Ordered le h) :
    Ordered le (h.rest le) := by
  cases h with
  | leaf => exact hh
  | node rank top left right => exact ordered_merge trans total _ _ hh.2.2.1 hh.2.2.2

theorem top_mem {h : Heap α} {x : α} (hx : h.top? = some x) : x ∈ h.toList := by
  cases h with
  | leaf => simp [top?] at hx
  | node rank top left right => simpa [top?, toList, eq_comm] using Or.inl hx

theorem top?_eq_none_iff {h : Heap α} : h.top? = none ↔ h.toList = [] := by
  cases h <;> simp [top?, toList]

theorem top_le {h : Heap α} (hh : Ordered le h) (refl : ∀ a, le a a = true) {x : α}
    (hx : h.top? = some x) : ∀ y ∈ h.toList, le x y = true := by
  cases h with
  | leaf => simp [top?] at hx
  | node rank top left right =>
    simp only [top?, Option.some.injEq] at hx
    subst hx
    intro y hy
    rcases List.mem_cons.mp hy with rfl | hy
    · exact refl y
    · rcases List.mem_append.mp hy with hy | hy
      · exact hh.1 y hy
      · exact hh.2.1 y hy

end Heap

/-- An element put behind all of the same or an earlier date. -/
def place {α : Type} (due : α → Nat) (x : α) : List α → List α
  | [] => [x]
  | y :: rest => if due y ≤ due x then y :: place due x rest else x :: y :: rest

section Place

variable {α β : Type} {due : α → Nat} {x : α}

theorem perm_place (l : List α) : (place due x l).Perm (x :: l) := by
  induction l with
  | nil => exact .refl _
  | cons y rest ih =>
    simp only [place]
    split
    · exact (ih.cons y).trans (.swap x y rest)
    · exact .refl _

@[simp] theorem mem_place {y : α} {l : List α} : y ∈ place due x l ↔ y = x ∨ y ∈ l := by
  rw [(perm_place l).mem_iff, List.mem_cons]

theorem map_place (f : α → β) (due' : β → Nat) (h : ∀ a, due' (f a) = due a) (l : List α) :
    (place due x l).map f = place due' (f x) (l.map f) := by
  induction l with
  | nil => rfl
  | cons y rest ih =>
    simp only [place, List.map_cons, h]
    split <;> simp [ih]

theorem place_behind {a b : List α} (ha : ∀ y ∈ a, due y ≤ due x) :
    place due x (a ++ b) = a ++ place due x b := by
  induction a with
  | nil => rfl
  | cons y a ih => simp [place, ha y (by simp), ih fun z hz => ha z (by simp [hz])]

theorem place_eq_append {l : List α} (h : ∀ y ∈ l, due y ≤ due x) : place due x l = l ++ [x] := by
  have := place_behind (b := []) h
  simpa [place] using this

theorem place_append {a b : List α} (ha : ∀ y ∈ a, due y ≤ due x) (hb : ∀ y ∈ b, due x < due y) :
    place due x (a ++ b) = a ++ x :: b := by
  rw [place_behind ha]
  cases b with
  | nil => rfl
  | cons y b =>
    have := hb y (by simp)
    rw [place, if_neg (by omega)]

/-- A list in the order of its dates comes to an end of what is due at some place. -/
theorem filter_append_filter {l : List α} (h : l.Pairwise (due · ≤ due ·)) (now : Nat) :
    l.filter (due · ≤ now) ++ l.filter (now < due ·) = l := by
  induction l with
  | nil => rfl
  | cons a l ih =>
    obtain ⟨ha, hl⟩ := List.pairwise_cons.mp h
    by_cases hdue : due a ≤ now
    · have hnot : ¬ now < due a := by omega
      simp [hdue, hnot, ih hl]
    · have hlater : ∀ b ∈ l, now < due b := by
        intro b hb
        have := ha b hb
        omega
      have hnone : l.filter (due · ≤ now) = [] := by
        rw [List.filter_eq_nil_iff]
        intro b hb
        have := hlater b hb
        simp
        omega
      have hall : l.filter (now < due ·) = l := by
        rw [List.filter_eq_self]
        intro b hb
        simpa using hlater b hb
      have hnow : now < due a := by omega
      simp [hdue, hnow, hnone, hall]

/-- In a list in the order of its dates an element has a place, between what is due by its date and what
is due later. -/
theorem exists_place {l : List α} (h : l.Pairwise (due · ≤ due ·)) (x : α) :
    ∃ before behind, l = before ++ behind ∧ place due x l = before ++ x :: behind ∧
      (∀ y ∈ before, due y ≤ due x) ∧ ∀ y ∈ behind, due x < due y := by
  have hbefore : ∀ y ∈ l.filter (due · ≤ due x), due y ≤ due x := by
    intro y hy
    simpa using (List.mem_filter.mp hy).2
  have hbehind : ∀ y ∈ l.filter (due x < due ·), due x < due y := by
    intro y hy
    simpa using (List.mem_filter.mp hy).2
  have hsplit := filter_append_filter h (due x)
  refine ⟨_, _, hsplit.symm, ?_, hbefore, hbehind⟩
  rw [← place_append hbefore hbehind, hsplit]

end Place

namespace Ticket

theorem le_refl (a : Ticket) : le a a = true := by simp [le]

theorem number_eq_of_le {a b : Ticket} (h : le a b = true) (k : le b a = true) :
    a.number = b.number := by
  rw [le_iff] at *; omega

end Ticket

theorem pairwise_place {k : Ticket} {l : List Ticket}
    (hl : l.Pairwise fun a b => Ticket.le a b = true)
    (hk : ∀ a ∈ l, a.number < k.number) :
    (place (·.task.due) k l).Pairwise fun a b => Ticket.le a b = true := by
  induction l with
  | nil => simp [place]
  | cons a rest ih =>
    obtain ⟨ha, hrest⟩ := List.pairwise_cons.mp hl
    have hlt := hk a (by simp)
    simp only [place]
    split
    · rename_i hle
      refine List.pairwise_cons.mpr ⟨?_, ih hrest fun b hb => hk b (by simp [hb])⟩
      intro b hb
      rcases mem_place.mp hb with rfl | hb
      · rw [Ticket.le_iff]; omega
      · exact ha b hb
    · rename_i hlt'
      have hka : Ticket.le k a = true := by rw [Ticket.le_iff]; omega
      refine List.pairwise_cons.mpr ⟨?_, hl⟩
      intro b hb
      rcases List.mem_cons.mp hb with rfl | hb
      · exact hka
      · exact Ticket.le_trans k a b hka (ha b hb)

namespace Schedule

def tickets (s : Schedule) : List Ticket := s.heap.toList.mergeSort Ticket.le

theorem toList_eq (s : Schedule) : s.toList = s.tickets.map (·.task) := rfl

theorem perm_tickets (s : Schedule) : s.tickets.Perm s.heap.toList := List.mergeSort_perm _ _

/-- The three parts of a schedule agree. -/
structure Sound (s : Schedule) : Prop where
  ordered : s.heap.Ordered Ticket.le
  below : ∀ k ∈ s.tickets, k.number < s.nextNumber
  numbers : (s.tickets.map (·.number)).Nodup
  paths : s.paths.Perm (s.tickets.map (·.task.path.components))
  apart : (s.tickets.map (·.task.path.components)).Nodup

variable {s : Schedule}

theorem sorted_tickets (s : Schedule) : s.tickets.Pairwise fun a b => Ticket.le a b = true :=
  List.pairwise_mergeSort Ticket.le_trans Ticket.le_total _

theorem sorted_toList (s : Schedule) : s.toList.Pairwise (·.due ≤ ·.due) := by
  rw [toList_eq, List.pairwise_map]
  apply s.sorted_tickets.imp
  intro a b h
  rw [Ticket.le_iff] at h
  omega

/-- Tickets with numbers of their own have one order only. -/
theorem tickets_eq_of_perm {l : List Ticket} (hl : l.Pairwise fun a b => Ticket.le a b = true)
    (hp : l.Perm s.heap.toList) (hn : (l.map (·.number)).Nodup) : s.tickets = l := by
  refine List.Perm.eq_of_pairwise ?_ s.sorted_tickets hl (s.perm_tickets.trans hp.symm)
  intro a b ha hb hab hba
  have ha' : a ∈ l := hp.mem_iff.mpr (s.perm_tickets.mem_iff.mp ha)
  exact List.inj_on_of_nodup_map hn ha' hb (Ticket.number_eq_of_le hab hba)

theorem Sound.top?_eq (h : s.Sound) : s.heap.top? = s.tickets.head? := by
  cases ht : s.heap.top? with
  | none =>
    have he : s.tickets = [] := by
      have := s.perm_tickets
      rw [Heap.top?_eq_none_iff.mp ht] at this
      exact this.eq_nil
    simp [he]
  | some k =>
    have hk : k ∈ s.tickets := s.perm_tickets.mem_iff.mpr (Heap.top_mem ht)
    cases hl : s.tickets with
    | nil => simp [hl] at hk
    | cons a rest =>
      have ha : a ∈ s.tickets := by simp [hl]
      -- the root and the head of the list precede each other
      have hka : Ticket.le k a = true :=
        Heap.top_le h.ordered Ticket.le_refl ht a (s.perm_tickets.mem_iff.mp ha)
      have hak : Ticket.le a k = true := by
        have hs := s.sorted_tickets
        rw [hl] at hs hk
        rcases List.mem_cons.mp hk with rfl | hk
        · exact Ticket.le_refl k
        · exact (List.pairwise_cons.mp hs).1 k hk
      have := List.inj_on_of_nodup_map h.numbers hk ha (Ticket.number_eq_of_le hka hak)
      simp [this]

theorem Sound.contains_iff (h : s.Sound) (p : Path) :
    s.contains p = true ↔ ∃ k ∈ s.tickets, k.task.path.components = p.components := by
  rw [contains, List.contains_iff_mem, h.paths.mem_iff, List.mem_map]

theorem sound_empty : Sound empty := by
  refine ⟨trivial, ?_, ?_, ?_, ?_⟩ <;> simp [tickets, empty, Heap.toList]

theorem insert?_eq_none_iff {t : Task} : s.insert? t = none ↔ s.contains t.path = true := by
  unfold insert?; split <;> simp_all

theorem Sound.insert? (h : s.Sound) {t : Task} {s' : Schedule} (hs : s.insert? t = some s') :
    s'.Sound ∧ s'.tickets = place (·.task.due) ⟨t, s.nextNumber⟩ s.tickets ∧
      s'.nextNumber = s.nextNumber + 1 := by
  have hc : s.contains t.path = false := by
    have := s.insert?_isSome t
    simpa [hs] using this
  simp only [Schedule.insert?, hc, Bool.false_eq_true, if_false, Option.some.injEq] at hs
  subst hs
  generalize hk : (⟨t, s.nextNumber⟩ : Ticket) = k
  have hkn : k.number = s.nextNumber := by rw [← hk]
  have hkt : k.task = t := by rw [← hk]
  have hnum : ((k :: s.tickets).map (·.number)).Nodup := by
    refine List.nodup_cons.mpr ⟨?_, h.numbers⟩
    simp only [List.mem_map, not_exists, not_and]
    intro a ha he
    have := h.below a ha
    omega
  have hpl : (place (·.task.due) k s.tickets).Perm (k :: s.tickets) := perm_place s.tickets
  have hheap : (place (·.task.due) k s.tickets).Perm (s.heap.insert Ticket.le k).toList :=
    hpl.trans ((s.perm_tickets.cons k).trans (Heap.toList_insert Ticket.le k s.heap).symm)
  have ht : tickets ⟨s.heap.insert Ticket.le k, s.nextNumber + 1, t.path.components :: s.paths⟩ =
      place (·.task.due) k s.tickets := by
    refine tickets_eq_of_perm (pairwise_place s.sorted_tickets ?_) hheap ?_
    · intro a ha
      rw [hkn]
      exact h.below a ha
    · exact (hpl.map _).nodup_iff.mpr hnum
  refine ⟨⟨?_, ?_, ?_, ?_, ?_⟩, ht, rfl⟩
  · exact Heap.ordered_insert Ticket.le_trans Ticket.le_total k h.ordered
  · rw [ht]
    intro a ha
    show a.number < s.nextNumber + 1
    rcases mem_place.mp ha with rfl | ha
    · omega
    · exact Nat.lt_succ_of_lt (h.below a ha)
  · rw [ht]
    exact (hpl.map _).nodup_iff.mpr hnum
  · rw [ht]
    refine List.Perm.trans ?_ (hpl.map (·.task.path.components)).symm
    rw [List.map_cons, hkt]
    exact h.paths.cons _
  · rw [ht]
    refine (hpl.map (·.task.path.components)).nodup_iff.mpr (List.nodup_cons.mpr ⟨?_, h.apart⟩)
    intro hm
    obtain ⟨a, ha, he⟩ := List.mem_map.mp hm
    have : s.contains t.path = true := (h.contains_iff _).mpr ⟨a, ha, by simp [he, hkt]⟩
    simp [hc] at this

theorem Sound.takeDue_cases (h : s.Sound) (now : Nat) :
    (s.tickets = [] ∧ s.takeDue now = (.nothing, s)) ∨
    (∃ k rest, s.tickets = k :: rest ∧ now < k.task.due ∧
      s.takeDue now = (.notBefore k.task.due, s)) ∨
    (∃ k rest s', s.tickets = k :: rest ∧ k.task.due ≤ now ∧ s.takeDue now = (.due k.task, s') ∧
      s'.Sound ∧ s'.tickets = rest ∧ s'.nextNumber = s.nextNumber) := by
  have htop := h.top?_eq
  cases hl : s.tickets with
  | nil =>
    rw [hl] at htop
    exact .inl ⟨rfl, by simp [takeDue, htop]⟩
  | cons k rest =>
    rw [hl] at htop
    simp only [List.head?_cons] at htop
    by_cases hd : now < k.task.due
    · exact .inr (.inl ⟨k, rest, rfl, hd, by simp [takeDue, htop, hd]⟩)
    · refine .inr (.inr ⟨k, rest, _, rfl, by omega, by simp only [takeDue, htop, hd, if_false]; rfl,
        ?_⟩)
      have hsorted := s.sorted_tickets
      have hnum := h.numbers
      have hapart := h.apart
      have hpaths := h.paths
      rw [hl] at hsorted hnum hapart hpaths
      simp only [List.map_cons, List.nodup_cons] at hnum hapart
      have hperm : rest.Perm (s.heap.rest Ticket.le).toList := by
        have := (s.perm_tickets.trans (Heap.toList_rest Ticket.le htop).symm)
        rw [hl] at this
        exact this.cons_inv
      have ht : tickets ⟨s.heap.rest Ticket.le, s.nextNumber,
          s.paths.erase k.task.path.components⟩ = rest :=
        tickets_eq_of_perm (List.pairwise_cons.mp hsorted).2 hperm hnum.2
      refine ⟨⟨Heap.ordered_rest Ticket.le_trans Ticket.le_total h.ordered, ?_, ?_, ?_, ?_⟩, ht, rfl⟩
      · rw [ht]
        intro a ha
        exact h.below a (by simp [hl, ha])
      · rw [ht]; exact hnum.2
      · rw [ht]
        have := hpaths.erase k.task.path.components
        simpa using this
      · rw [ht]; exact hapart.2

theorem Sound.nextDue?_eq (h : s.Sound) : s.nextDue? = s.tickets.head?.map (·.task.due) := by
  rw [nextDue?, h.top?_eq]

end Schedule
end RecordingDelivery
