import Mathlib
import RecordingDelivery.Proofs.Outbox.History

/-!
Who gets which task out of an outbox, and when. The tickets leave from the front, and one that comes in
goes behind all that are due at that instant: what is due once keeps its turn, whatever comes.
-/
namespace RecordingDelivery

/-- A ticket that has left, at a time, to a taker that waited for one or to someone who just asked. -/
structure Handout where
  taker : Option Nat
  ticket : Ticket
  time : Nat
  deriving DecidableEq, Repr

theorem Schedule.due_le_of_before (s : Schedule) {front back : List Ticket} {x : Ticket}
    (hsplit : s.tickets = front ++ x :: back) {a : Ticket} (ha : a ∈ front ++ [x]) :
    a.task.due ≤ x.task.due := by
  have hsorted := s.sorted_tickets
  rw [hsplit] at hsorted
  rcases List.mem_append.mp ha with ha | ha
  · have := Ticket.le_iff.mp ((List.pairwise_append.mp hsorted).2.2 a ha x (by simp))
    omega
  · rw [List.mem_singleton.mp ha]

namespace Outbox

def Act.taking? : Act → Option (Option Nat × Nat)
  | .takeDue now => some (none, now)
  | .look taker now | .resume taker now _ => some (some taker, now)
  | .enqueue _ _ _ _ | .requeue _ _ _ | .scan _ _ _ _ _ | .leave _ => none

def Act.putting? : Act → Option Nat
  | .enqueue _ _ _ now | .requeue _ _ now | .scan _ _ _ _ now => some now
  | .takeDue _ | .look _ _ | .resume _ _ _ | .leave _ => none

/-- The task that an act gives to whoever asked for one. -/
def reply (o : Outbox) : Act → Option Task
  | .takeDue now => (o.takeDue now).1
  | .look taker now => (o.look taker now).1
  | .resume taker now atDate => (o.resume taker now atDate).1
  | .enqueue _ _ _ _ | .requeue _ _ _ | .scan _ _ _ _ _ | .leave _ => none

/-- What an act hands out: the first ticket goes, if any does. -/
def handout? (o : Outbox) (a : Act) : Option Handout :=
  match a.taking?, o.reply a, o.tickets with
  | some (taker, time), some _, ticket :: _ => some ⟨taker, ticket, time⟩
  | _, _, _ => none

def handouts (o : Outbox) : List Act → List Handout
  | [] => []
  | a :: rest => (o.handout? a).toList ++ (o.act a).handouts rest

def replies (o : Outbox) : List Act → List Task
  | [] => []
  | a :: rest => (o.reply a).toList ++ (o.act a).replies rest

def placeAll (new tickets : List Ticket) : List Ticket :=
  new.foldl (fun l k => place (·.task.due) k l) tickets

theorem perm_placeAll (new tickets : List Ticket) : (placeAll new tickets).Perm (new ++ tickets) := by
  induction new generalizing tickets with
  | nil => exact .refl _
  | cons k new ih =>
    refine (ih _).trans ?_
    refine ((perm_place tickets).append_left new).trans ?_
    exact List.perm_middle

theorem prefix_placeAll {front new tickets : List Ticket} (hfront : front <+: tickets)
    (hnew : ∀ k ∈ new, ∀ a ∈ front, a.task.due ≤ k.task.due) : front <+: placeAll new tickets := by
  induction new generalizing tickets with
  | nil => exact hfront
  | cons k new ih =>
    obtain ⟨back, rfl⟩ := hfront
    have hplaced : place (·.task.due) k (front ++ back) = front ++ place (·.task.due) k back :=
      place_behind fun a ha => hnew k (by simp) a ha
    rw [placeAll, List.foldl_cons, hplaced]
    exact ih (List.prefix_append _ _) fun k' hk' => hnew k' (by simp [hk'])

inductive Effect (o : Outbox) (a : Act) : Prop
  /-- The first one goes, and it is due. -/
  | takes {k : Ticket} {rest : List Ticket} {taker : Option Nat} {now : Nat}
      (taking : a.taking? = some (taker, now)) (first : o.tickets = k :: rest)
      (due : k.task.due ≤ now) (reply : o.reply a = some k.task) (left : (o.act a).tickets = rest)
      (number : (o.act a).nextNumber = o.nextNumber)
  /-- New ones come in, due at that instant or later. -/
  | puts (new : List Ticket) (none : o.reply a = none)
      (tickets : (o.act a).tickets = placeAll new o.tickets)
      (numbers : new.map (·.number) = List.range' o.nextNumber new.length)
      (number : (o.act a).nextNumber = o.nextNumber + new.length)
      (due : ∀ k ∈ new, ∃ now ∈ a.putting?, now ≤ k.task.due)

variable {o : Outbox}

/-- What comes in by one insertion, or by several. -/
structure Puts (o o' : Outbox) (now : Nat) (new : List Ticket) : Prop where
  sound : o'.schedule.Sound
  tickets : o'.tickets = placeAll new o.tickets
  numbers : new.map (·.number) = List.range' o.nextNumber new.length
  number : o'.nextNumber = o.nextNumber + new.length
  due : ∀ k ∈ new, now ≤ k.task.due

theorem puts_nothing (h : o.schedule.Sound) (now : Nat) : o.Puts o now [] :=
  ⟨h, rfl, rfl, rfl, by simp⟩

theorem Puts.trans {o' o'' : Outbox} {now : Nat} {new new' : List Ticket} (h : o.Puts o' now new)
    (h' : o'.Puts o'' now new') : o.Puts o'' now (new ++ new') := by
  refine ⟨h'.sound, ?_, ?_, ?_, ?_⟩
  · rw [h'.tickets, h.tickets, placeAll, placeAll, placeAll, List.foldl_append]
  · rw [List.map_append, h.numbers, h'.numbers, h.number, List.length_append, List.range'_append_1]
  · rw [h'.number, h.number, List.length_append, Nat.add_assoc]
  · intro k hk
    rcases List.mem_append.mp hk with hk | hk
    · exact h.due k hk
    · exact h'.due k hk

theorem puts_insert (h : o.schedule.Sound) {t : Task} {now : Nat} (hdue : now ≤ t.due) :
    ∃ new, o.Puts (o.insert t).2 now new := by
  rcases insert_cases h t with ⟨-, hi⟩ | ⟨s, -, hi, hs, ht, hn⟩
  · rw [hi]
    exact ⟨[], puts_nothing h now⟩
  · rw [hi]
    refine ⟨[⟨t, o.nextNumber⟩], by simpa using hs, ?_, rfl, ?_, by simpa using hdue⟩
    · rw [tickets, notify_schedule]
      exact ht
    · rw [nextNumber, notify_schedule]
      exact hn

theorem puts_enqueue (h : o.schedule.Sound) (p : Path) (d : Destination) (wall : Timestamp)
    (now : Nat) : ∃ new, o.Puts (o.enqueue p d wall now).2 now new := by
  unfold enqueue
  split
  · exact ⟨[], puts_nothing h now⟩
  · exact puts_insert h (Nat.le_refl now)

theorem puts_enqueueAll (h : o.schedule.Sound) (d : Destination) (wall : Timestamp) (now : Nat)
    (ps : List Path) : ∃ new, o.Puts (enqueueAll d wall now o ps).2 now new := by
  induction ps generalizing o with
  | nil => exact ⟨[], puts_nothing h now⟩
  | cons p rest ih =>
    obtain ⟨new, hfirst⟩ := puts_enqueue h p d wall now
    obtain ⟨new', hrest⟩ := ih hfirst.sound
    exact ⟨new ++ new', hfirst.trans hrest⟩

theorem Puts.effect {a : Act} {now : Nat} {new : List Ticket} (h : o.Puts (o.act a) now new)
    (hnone : o.reply a = none) (ha : now ∈ a.putting?) : o.Effect a :=
  .puts new hnone h.tickets h.numbers h.number fun k hk => ⟨now, ha, h.due k hk⟩

theorem effect_nothing {a : Act} (hnone : o.reply a = none)
    (hs : (o.act a).schedule = o.schedule) : o.Effect a :=
  .puts [] hnone (by rw [tickets, hs]; rfl) rfl (by rw [nextNumber, hs]; rfl) (by simp)

theorem effect_look {o' : Outbox} (h : o.schedule.Sound) (hs : o'.schedule = o.schedule) {a : Act}
    {taker now : Nat} (ha : a.taking? = some (some taker, now))
    (hact : o.act a = (o'.look taker now).2) (hreply : o.reply a = (o'.look taker now).1) :
    o.Effect a := by
  have h' : o'.schedule.Sound := by rw [hs]; exact h
  rcases look_cases h' taker now with ⟨k, rest, s, ht, hd, hl, -, hr, hn⟩ | ⟨-, hl⟩
  · rw [tickets, hs] at ht
    rw [nextNumber, hs] at hn
    rw [hl] at hact hreply
    refine .takes ha ht hd hreply ?_ ?_
    · rw [hact]
      exact hr
    · rw [hact]
      exact hn
  · rw [hl] at hact hreply
    refine effect_nothing hreply ?_
    rw [hact]
    exact hs

theorem effect (h : o.schedule.Sound) (a : Act) : o.Effect a := by
  cases a with
  | enqueue p d wall now =>
    obtain ⟨new, hp⟩ := puts_enqueue h p d wall now
    exact hp.effect rfl rfl
  | requeue t delay now =>
    have hdue : now ≤ (t.retryAt (now + min delay horizon)).due := by simp
    obtain ⟨new, hp⟩ := puts_insert h hdue
    exact hp.effect rfl rfl
  | scan tree d dir wall now =>
    obtain ⟨new, hp⟩ := puts_enqueueAll h d wall now (tree.recordings d dir)
    exact hp.effect rfl rfl
  | takeDue now =>
    rcases h.takeDue_cases now with
      ⟨-, hd⟩ | ⟨k, rest, -, -, hd⟩ | ⟨k, rest, s, hl, hle, hd, -, hr, hn⟩
    · exact effect_nothing (by simp [reply, takeDue, hd]) (by simp [act, takeDue, hd])
    · exact effect_nothing (by simp [reply, takeDue, hd]) (by simp [act, takeDue, hd])
    · exact .takes rfl hl hle (by simp [reply, takeDue, hd]) (by simpa [act, takeDue, hd] using hr)
        (by simpa [act, takeDue, hd] using hn)
  | look taker now => exact effect_look h rfl rfl rfl rfl
  | resume taker now atDate =>
    cases atDate with
    | true => exact effect_look h (leave_schedule o taker) rfl rfl rfl
    | false => exact effect_look h (release_schedule o taker) rfl rfl rfl
  | leave taker => exact effect_nothing rfl (leave_schedule o taker)

theorem handout?_takes {a : Act} {taker : Option Nat} {now : Nat} {k : Ticket} {rest : List Ticket}
    (taking : a.taking? = some (taker, now)) (first : o.tickets = k :: rest)
    (reply : o.reply a = some k.task) : o.handout? a = some ⟨taker, k, now⟩ := by
  simp [handout?, taking, first, reply]

theorem handout?_of_none {a : Act} (hnone : o.reply a = none) : o.handout? a = none := by
  simp [handout?, hnone]

theorem replies_eq (h : o.schedule.Sound) (acts : List Act) :
    o.replies acts = (o.handouts acts).map (·.ticket.task) := by
  induction acts generalizing o with
  | nil => rfl
  | cons a rest ih =>
    rw [replies, handouts, List.map_append, ih (sound_act h a)]
    refine congrArg (· ++ _) ?_
    cases effect h a with
    | takes taking first due reply => simp [handout?_takes taking first reply, reply]
    | puts new none => simp [handout?_of_none none, none]

/-- Tickets at the front that are all due at an instant stay there, in their order, as far as they are
not handed out. -/
theorem handouts_front (h : o.schedule.Sound) {t : Nat} {front : List Ticket}
    (hfront : front <+: o.tickets) (hdue : ∀ k ∈ front, k.task.due ≤ t) {acts : List Act}
    (hacts : ∀ a ∈ acts, ∀ now ∈ a.putting?, t ≤ now) :
    ((o.handouts acts).map (·.ticket)).take front.length = front.take (o.handouts acts).length ∧
      front.drop (o.handouts acts).length <+: (o.after acts).tickets := by
  induction acts generalizing o front with
  | nil => simpa [handouts, after] using hfront
  | cons a rest ih =>
    have hrest : ∀ b ∈ rest, ∀ now ∈ b.putting?, t ≤ now := fun b hb => hacts b (by simp [hb])
    have hnext {front' : List Ticket} (hstart : front' <+: (o.act a).tickets)
        (hdue' : ∀ k ∈ front', k.task.due ≤ t) := ih (sound_act h a) hstart hdue' hrest
    rw [handouts, after, List.foldl_cons, ← after]
    cases effect h a with
    | @takes k behind taker now taking first due reply left =>
      rw [handout?_takes taking first reply]
      cases front with
      | nil => simp
      | cons k' front =>
        rw [first] at hfront
        obtain ⟨rfl, hbehind⟩ := List.cons_prefix_cons.mp hfront
        have hleft : front <+: (o.act a).tickets := by
          rw [left]
          exact hbehind
        obtain ⟨htaken, hstays⟩ := hnext hleft fun k hk => hdue k (by simp [hk])
        exact ⟨by simpa using htaken, by simpa using hstays⟩
    | puts new none tickets numbers number later =>
      rw [handout?_of_none none]
      refine hnext ?_ hdue
      rw [tickets]
      refine prefix_placeAll hfront fun k hk a ha => ?_
      obtain ⟨now, hnow, hlater⟩ := later k hk
      have := hacts _ (by simp) now hnow
      have := hdue a ha
      omega

/-- A ticket that is due at an instant, with `k` before it, is the next to leave but `k`, whatever was
done to the outbox before and whatever is put in from that instant on, files that failed or files that
are new. Before it leave those that stood before it, in their order, and until it leaves it stays. -/
theorem due_next {past later : List Act} {t k : Nat} {x : Ticket}
    (hx : (({} : Outbox).after past).tickets[k]? = some x) (hdue : x.task.due ≤ t)
    (hlater : ∀ a ∈ later, ∀ now ∈ a.putting?, t ≤ now) :
    let o := ({} : Outbox).after past
    let gone := (o.handouts later).map (·.ticket)
    o.replies later = gone.map (·.task) ∧
      gone.take (k + 1) = (o.tickets.take (k + 1)).take gone.length ∧
      (k < gone.length → gone[k]? = some x) ∧
      (gone.length ≤ k → (o.after later).tickets[k - gone.length]? = some x) := by
  intro o gone
  have hsound : o.schedule.Sound := sound_after Schedule.sound_empty past
  have hx : o.tickets[k]? = some x := hx
  obtain ⟨front, back, hsplit, hlength⟩ : ∃ front back, o.tickets = front ++ x :: back ∧
      front.length = k := by
    obtain ⟨hk, hget⟩ := List.getElem?_eq_some_iff.mp hx
    refine ⟨o.tickets.take k, o.tickets.drop (k + 1), ?_, List.length_take_of_le hk.le⟩
    rw [← hget, ← List.drop_eq_getElem_cons hk, List.take_append_drop]
  have hfront : ∀ a ∈ front ++ [x], a.task.due ≤ t := fun a ha =>
    Nat.le_trans (o.schedule.due_le_of_before hsplit ha) hdue
  have hstart : front ++ [x] <+: o.tickets := ⟨back, by simp [hsplit]⟩
  obtain ⟨htaken, hstays⟩ := handouts_front hsound hstart hfront hlater
  have hgone : (o.handouts later).length = gone.length := (List.length_map _).symm
  have htake : o.tickets.take (k + 1) = front ++ [x] := by
    rw [List.prefix_iff_eq_take.mp hstart, List.length_append, hlength]
    rfl
  rw [List.length_append, hlength, hgone] at htaken
  rw [hgone] at hstays
  refine ⟨?_, by rw [htake]; exact htaken, ?_, ?_⟩
  · rw [replies_eq hsound, List.map_map]
    rfl
  · intro hlt
    calc gone[k]? = (gone.take (k + 1))[k]? := by simp
      _ = ((front ++ [x]).take gone.length)[k]? := congrArg (·[k]?) htaken
      _ = some x := by
        rw [List.getElem?_take_of_lt hlt, ← hlength]
        simp
  · intro hle
    obtain ⟨behind, hbehind⟩ := hstays
    have hlt : k - gone.length < ((front ++ [x]).drop gone.length).length := by
      rw [List.length_drop, List.length_append, hlength, List.length_singleton]
      omega
    rw [← hbehind, List.getElem?_append_left hlt, List.getElem?_drop, Nat.add_sub_cancel' hle,
      ← hlength]
    simp

def twoDue : List Act :=
  [.enqueue (.ofText "a") (.ofEndpoint "u") .epoch 5, .enqueue (.ofText "b") (.ofEndpoint "u") .epoch 5]

/-- The first is taken, fails and comes back at once, and another recording is new. -/
def flooded : List Act :=
  [.takeDue 7, .requeue (.fresh (.ofText "a") (.ofEndpoint "u") .epoch 5) 0 7,
    .enqueue (.ofText "c") (.ofEndpoint "u") .epoch 7, .look 0 8]

theorem length_handouts_flooded :
    (((({} : Outbox).after twoDue).handouts flooded).map (·.ticket)).length = 2 := by cbv

theorem due_next_flooded :
    let o := ({} : Outbox).after twoDue
    let x : Ticket := ⟨.fresh (.ofText "b") (.ofEndpoint "u") .epoch 5, 1⟩
    let gone := (o.handouts flooded).map (·.ticket)
    o.tickets[1]? = some x ∧ x.task.due ≤ 7 ∧ (∀ a ∈ flooded, ∀ now ∈ a.putting?, 7 ≤ now) ∧
      gone.length = 2 ∧ gone.take (1 + 1) = (o.tickets.take (1 + 1)).take gone.length ∧
      gone[1]? = some x := by
  intro o x gone
  have hx : o.tickets[1]? = some x := by cbv
  have hputting : ∀ a ∈ flooded, ∀ now ∈ a.putting?, 7 ≤ now := by
    simp [flooded, Act.putting?]
  have hlength : gone.length = 2 := length_handouts_flooded
  have hlt : 1 < gone.length := by
    rw [hlength]
    decide
  obtain ⟨-, hgone, hnext, -⟩ := due_next hx (by decide) hputting
  exact ⟨hx, by decide, hputting, hlength, hgone, hnext hlt⟩

end Outbox
end RecordingDelivery
