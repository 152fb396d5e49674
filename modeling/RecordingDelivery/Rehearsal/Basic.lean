import RecordingDelivery.Rehearsal.Script

/-!
A rehearsal runs the service and further takers under a clock that moves only when the rehearsal
waits. Who is woken runs in the order of the wakes; when nobody can run the disk answers, and when
the disk has nothing to answer the clock jumps to the next event. The rehearsal itself runs on as soon
as all others who were woken before have run.
-/
namespace RecordingDelivery

structure Call where
  path : Path
  time : Nat
  attempt : Nat
  deriving DecidableEq, Repr

/-- The taker besides the courier and the rehearsal itself. -/
inductive Bystander
  | absent
  | starting
  | waiting
  | served (t : Task) (time : Nat)
  deriving DecidableEq, Repr

structure Rehearsal where
  service : Service := {}
  script : List Rehearsal.ScriptedCall := []
  /-- The call that the courier waits for, and when it ends. -/
  flight : Option (Nat × Rehearsal.ScriptedCall) := none
  calls : List Call := []
  bystander : Bystander := .absent
  /-- The takers that have been woken, in the order of the wakes. -/
  ready : List Nat := []
  /-- The takers that wait for the disk, the longest waiting first. -/
  disk : List Nat := []
  deriving Repr

namespace Rehearsal

def self : Nat := 1

def bystanderNumber : Nat := 2

def start (tree : Tree) (script : List ScriptedCall) (started : Bool) : Rehearsal :=
  { service := { site := { tree }, phase := if started then .looking else .stopped }
    script
    ready := if started then [Service.courier] else [] }

def now (r : Rehearsal) : Nat := r.service.site.now

def outbox (r : Rehearsal) : Outbox := r.service.site.outbox

/-- A taker other than the rehearsal itself joins those that have been woken, once. -/
def joinReady (ready : List Nat) (n : Nat) : List Nat :=
  if n = self ∨ n ∈ ready then ready else ready ++ [n]

def wake (r : Rehearsal) (takers : List Nat) : Rehearsal :=
  { r with ready := takers.foldl joinReady r.ready }

def noticed (r : Rehearsal) : Rehearsal :=
  r.wake ((r.outbox.waiters.filter (·.called)).map (·.taker))

def withSite (r : Rehearsal) (s : Site) : Rehearsal :=
  { r with service := { r.service with site := s } }.noticed

def withOutbox (r : Rehearsal) (o : Outbox) : Rehearsal :=
  { r with service := r.service.withOutbox o }.noticed

def endCall (r : Rehearsal) (line : ScriptedCall) : Rehearsal :=
  match r.service.phase with
  | .calling t =>
    let (result, site) := line.run t r.service.site
    { r with service := { r.service with site }.answer result, flight := none }
  | _ => { r with flight := none }

/-- A call that the courier has just begun takes the next line of the script. -/
def beginCall (r : Rehearsal) (t : Task) : Rehearsal :=
  let line := r.script.headD {}
  let r := { r with
    script := r.script.tail
    calls := ⟨t.path, r.now, t.attempt⟩ :: r.calls }
  if line.delay = 0 then r.endCall line else { r with flight := some (r.now + line.delay, line) }

/-- The courier runs up to where it has to wait. -/
def runCourier (r : Rehearsal) : Rehearsal :=
  let r := match r.flight with
    | some (time, line) => if time ≤ r.now then r.endCall line else r
    | none =>
      let r := { r with service := r.service.turn }
      match r.service.phase with
      | .calling t => r.beginCall t
      | _ => r
  let r := { r with service := r.service.goOn }
  if r.service.phase.isAtDisk then { r with disk := r.disk ++ [Service.courier] } else r

def serveBystander (r : Rehearsal) (found : Option Task × Outbox) : Rehearsal :=
  let r := r.withOutbox found.2
  match found.1 with
  | some t => { r with bystander := .served t r.now }
  | none => { r with bystander := .waiting }

def runBystander (r : Rehearsal) : Rehearsal :=
  match r.bystander with
  | .starting => r.serveBystander (r.outbox.look bystanderNumber r.now)
  | .waiting => r.serveBystander (r.outbox.resume bystanderNumber r.now)
  | .absent | .served .. => r

/-- More than all that can happen before everyone waits for good: each line of the script and each
task makes for one call, and a call for a few events. -/
def patience (r : Rehearsal) : Nat :=
  let lines := r.script ++ (r.flight.map (·.2)).toList
  16 * (lines.length + lines.foldl (fun n line => n + line.meanwhile.length) 0 + r.outbox.size
    + r.outbox.waiters.length + 4)

def runReady : Nat → Rehearsal → Rehearsal
  | 0, r => r
  | fuel + 1, r =>
    match r.ready with
    | [] => r
    | n :: rest =>
      let r := { r with ready := rest }
      runReady fuel (if n = Service.courier then r.runCourier else r.runBystander).noticed

/-- Lets the others run at this instant, as far as they need no disk. -/
def pause (r : Rehearsal) : Rehearsal := runReady r.patience r

def nextTime? (r : Rehearsal) : Option Nat :=
  match r.flight.map (·.1), r.outbox.nextTimer? with
  | some a, some b => some (min a b)
  | some a, none => some a
  | none, b => b

/-- The clock moves to an instant; those whose date has come are woken. -/
def moveTo (r : Rehearsal) (time : Nat) : Rehearsal :=
  let r := { r with service := r.service.advance time }
  let landed := match r.flight with
    | some (date, _) => if date ≤ time then [Service.courier] else []
    | none => []
  r.wake (landed ++ (r.outbox.waiters.filter (·.isRunnable time)).map (·.taker))

/-- Lets things happen, and the clock run up to the limit, until the rehearsal itself is woken or
everyone waits for good. -/
def runUntil (woken : Rehearsal → Bool) (limit : Option Nat) : Nat → Rehearsal → Rehearsal
  | 0, r => r
  | fuel + 1, r =>
    let r := r.pause
    if woken r then r
    else match r.disk with
      | n :: rest => runUntil woken limit fuel ({ r with disk := rest }.wake [n])
      | [] =>
        let time := match r.nextTime?, limit with
          | some t, some limit => some (min t limit)
          | some t, none => some t
          | none, limit => limit
        match time with
        | some t =>
          if r.now < t then
            let r := r.moveTo t
            if woken r then r else runUntil woken limit fuel r
          else r
        | none => r

def await (r : Rehearsal) (woken : Rehearsal → Bool) (limit : Option Nat) : Rehearsal :=
  runUntil woken limit r.patience r

/-- Waits for a stretch of time; no time at all is no wait. -/
def sleep (r : Rehearsal) (stretch : Nat) : Rehearsal :=
  let date := r.now + stretch
  if stretch = 0 then r else r.await (fun r => date ≤ r.now) (some date)

/-- Waits for the disk, behind those that wait for it already. -/
def awaitDisk (r : Rehearsal) : Rehearsal :=
  go (r.disk.length + 1) { r with disk := r.disk ++ [self] }
where
  go : Nat → Rehearsal → Rehearsal
    | 0, r => r
    | fuel + 1, r =>
      let r := r.pause
      match r.disk with
      | [] => r
      | n :: rest =>
        let r := { r with disk := rest }
        if n = self then r else go fuel (r.wake [n])

/-- Takes the first task as soon as it is due, waiting for so long at most. -/
def take (r : Rehearsal) (timeout : Nat) : Option Task × Rehearsal :=
  match r.outbox.look self r.now with
  | (some t, o) => (some t, r.withOutbox o)
  | (none, o) => wait (r.now + timeout) r.patience (r.withOutbox o)
where
  giveUp (r : Rehearsal) : Option Task × Rehearsal := (none, r.withOutbox (r.outbox.leave self))
  wait (limit : Nat) : Nat → Rehearsal → Option Task × Rehearsal
    | 0, r => giveUp r
    | fuel + 1, r =>
      if limit ≤ r.now then giveUp r
      else
        let r := r.await (fun r => r.outbox.isRunnable self r.now || limit ≤ r.now) (some limit)
        if r.outbox.isRunnable self r.now then
          match r.outbox.resume self r.now with
          | (some t, o) => (some t, r.withOutbox o)
          | (none, o) => wait limit fuel (r.withOutbox o)
        else giveUp r

def startBystander (r : Rehearsal) : Rehearsal :=
  ({ r with bystander := .starting }.wake [bystanderNumber]).pause

def cancelBystander (r : Rehearsal) : Rehearsal :=
  { r with
    bystander := .absent
    ready := r.ready.filter (· != bystanderNumber) }.withOutbox (r.outbox.leave bystanderNumber)

/-- The other taker's task and the time at which it got it, which ends its wait. -/
def collect (r : Rehearsal) : Option (Task × Nat) × Rehearsal :=
  match r.bystander with
  | .served t time => (some (t, time), { r with bystander := .absent })
  | _ => (none, r)

def shutdown (r : Rehearsal) : Rehearsal :=
  let r := { r with service := r.service.requestStop }
  let r := if r.service.phase = .waiting then r.wake [Service.courier] else r
  r.await (fun r => r.service.phase == .stopped) none

def attempt (r : Rehearsal) (t : Task) (line : ScriptedCall) : Outcome × Bool × Rehearsal :=
  let r := r.awaitDisk
  if r.service.site.tree.isPresent t.path then
    let r := r.sleep line.delay
    let (result, site) := line.run t r.service.site
    let r := r.withSite site
    let r := if result.isOk then r.awaitDisk else r
    let (outcome, site) := r.service.site.settle t result
    (outcome, true, r.withSite site)
  else (.vanished, false, r)

end Rehearsal
end RecordingDelivery
