import LibuvcH264Src.CachePath
import LibuvcH264Src.Runs

/-!
# The control socket

* `ControlState`, `controlStep` : what `start`, `stop` and the control thread do with the control socket, one operation
  at a time, among the descriptors of the process;
* `Holds d kind owner` : the one descriptor of a kind; `Sound` : who owns which descriptor, and what the flag says;
* `control_sound` : no operation is on a descriptor that is not what it takes it for, and a stopped element has none;
* `control_join_ends` : how much of the thread `stop` waits for;
* `control_unlinked` : the socket file of a stopped element is gone.
-/

namespace LibuvcH264Src
namespace Control
open AnnexB

/-! ## The state -/

/-- What a descriptor of the process is. -/
inductive Descriptor where
  | listening
  | client
  | wakeup
  /-- Of another part of the process. -/
  | foreign
  deriving DecidableEq

/-- The operation of `control_thread` that comes next. -/
inductive ThreadSite where
  | loop
  | snapshot
  | select (fd : Nat)
  | accept (fd : Nat)
  | read (client : Nat)
  | send (client : Nat)
  | close (client : Nat)
  | exited
  deriving DecidableEq

/-- The operation of `start` or `stop` that comes next; those of `control_socket_bind` have their descriptor. -/
inductive CallSite where
  | idle
  | socket
  | bind (fd : Nat)
  | chmod (fd : Nat)
  | listen (fd : Nat)
  | publish (fd : Nat)
  | setRunning
  | spawn
  | stop
  | nudge
  | connect (fd : Nat)
  | closeNudge (fd : Nat)
  | join
  | unbind
  | unlink
  deriving DecidableEq

/-- What must not happen: an operation on a descriptor that is closed, or by now another one; a listening socket or a
thread that is forgotten. -/
inductive Fault where
  | badDescriptor (fd : Nat)
  | lostSocket (fd : Nat)
  | lostThread
  deriving DecidableEq

/-- `files` are the socket files that were made and not unlinked; `seq` is `control_socket_seq`. -/
structure ControlState where
  path : Option (List Byte)
  socket : Option Nat
  running : Bool
  thread : Option ThreadSite
  started : Bool
  site : CallSite
  descriptors : Nat → Option Descriptor
  files : List (List Byte)
  seq : UInt32
  faults : List Fault

def ControlState.init : ControlState := ⟨none, none, false, none, false, .idle, fun _ => none, [], 0, []⟩

/-! ## The operations -/

/-- How a system call returns. A `select` may time out. -/
inductive Reply where
  | ok
  | fails
  | timeout
  | descriptor (fd : Nat)
  deriving DecidableEq

/-- An operation on a descriptor. -/
def ControlState.use (s : ControlState) (fd : Nat) (kind : Descriptor) : ControlState :=
  if s.descriptors fd = some kind then s else { s with faults := .badDescriptor fd :: s.faults }

def ControlState.opened (s : ControlState) (fd : Nat) (kind : Descriptor) : ControlState :=
  { s with descriptors := Function.update s.descriptors fd (some kind) }

def ControlState.closed (s : ControlState) (fd : Nat) (kind : Descriptor) : ControlState :=
  { s.use fd kind with descriptors := Function.update s.descriptors fd none }

/-- `unlink` of `control_socket_path`, if there is one. -/
def ControlState.unlinked (s : ControlState) : ControlState :=
  { s with files := s.files.filter fun file => s.path ≠ some file }

/-- The default path: `"%s/libuvch264src-%d-%u.sock"`. -/
def defaultSocketPath (runtime : List Byte) (pid : Int) (id : UInt32) : List Byte :=
  runtime ++ ascii ['/', 'l', 'i', 'b', 'u', 'v', 'c', 'h', '2', '6', '4', 's', 'r', 'c', '-'] ++ printInt pid ++
    ascii ['-'] ++ ascii (Nat.toDigits 10 id.toNat) ++ ascii ['.', 's', 'o', 'c', 'k']

/-- The size of `sun_path`. -/
def sunPathSize : Nat := 108

/-- `control_socket_bind` up to the creation of the socket. -/
def ControlState.beginBind (s : ControlState) (runtime : Option (List Byte)) (pid : Int) : ControlState :=
  match s.path with
  | some path =>
    { s with started := path.length ≥ sunPathSize, site := if path.length ≥ sunPathSize then .idle else .socket }
  | none =>
    match runtime with
    | none | some [] => { s with started := true }
    | some (b :: bs) =>
      let path := defaultSocketPath (b :: bs) pid s.seq
      { s with
        path := some path
        seq := s.seq + 1
        started := path.length ≥ sunPathSize
        site := if path.length ≥ sunPathSize then .idle else .socket }

/-- The rest of `start` where the socket cannot be bound. -/
def ControlState.bindFailed (s : ControlState) : ControlState := { s with started := true, site := .idle }

/-- The next operation of the call that is under way. -/
def callStep (s : ControlState) (r : Reply) : Option ControlState :=
  match s.site with
  | .idle => none
  | .socket =>
    match r with
    | .descriptor fd => if s.descriptors fd = none then some { s.opened fd .listening with site := .bind fd } else none
    | _ => some s.bindFailed
  | .bind fd =>
    -- a socket file that an earlier process left is dropped first
    let s := s.unlinked.use fd .listening
    if r = .ok then some { s with files := s.path.toList ++ s.files, site := .chmod fd }
    else some (s.closed fd .listening).bindFailed
  | .chmod fd =>
    if r = .ok then some { s with site := .listen fd } else some (s.closed fd .listening).unlinked.bindFailed
  | .listen fd =>
    let s := s.use fd .listening
    if r = .ok then some { s with site := .publish fd } else some (s.closed fd .listening).unlinked.bindFailed
  | .publish fd =>
    some { s with
      socket := some fd
      faults := (s.socket.map Fault.lostSocket).toList ++ s.faults
      site := .setRunning }
  | .setRunning => some { s with running := true, site := .spawn }
  | .spawn =>
    some { s with
      thread := some .loop
      faults := (s.thread.map fun _ => Fault.lostThread).toList ++ s.faults
      started := true
      site := .idle }
  | .stop =>
    if s.running then some { s with running := false, site := if s.path = none then .join else .nudge }
    else some { s with site := .unbind }
  | .nudge =>
    match r with
    | .descriptor fd => if s.descriptors fd = none then some { s.opened fd .wakeup with site := .connect fd } else none
    | _ => some { s with site := .join }
  | .connect fd => some { s.use fd .wakeup with site := .closeNudge fd }
  | .closeNudge fd => some { s.closed fd .wakeup with site := .join }
  | .join =>
    match s.thread with
    | none => some { s with site := .unbind }
    | some .exited => some { s with thread := none, site := .unbind }
    | some _ => none
  | .unbind =>
    match s.socket with
    | none => some { s with site := .unlink }
    | some fd => some { s.closed fd .listening with socket := none, site := .unlink }
  | .unlink => some { s.unlinked with started := false, site := .idle }

/-- The next operation of the thread. -/
def threadStep (s : ControlState) (r : Reply) : Option ControlState :=
  match s.thread with
  | none | some .exited => none
  | some .loop => some { s with thread := some (if s.running then .snapshot else .exited) }
  | some .snapshot => some { s with thread := some (s.socket.elim .exited .select) }
  | some (.select fd) =>
    match r with
    | .fails => some { s.use fd .listening with thread := some .exited }
    | .timeout => some { s.use fd .listening with thread := some .loop }
    | _ => some { s.use fd .listening with thread := some (.accept fd) }
  | some (.accept fd) =>
    match r with
    | .descriptor client =>
      if s.descriptors client = none then
        some { (s.use fd .listening).opened client .client with thread := some (.read client) }
      else none
    | _ => some { s.use fd .listening with thread := some .loop }
  | some (.read client) =>
    some { s.use client .client with thread := some (if r = .ok then .send client else .close client) }
  | some (.send client) => some { s.use client .client with thread := some (.close client) }
  | some (.close client) => some { s.closed client .client with thread := some .loop }

inductive ControlEvent where
  /-- `start` comes to the control socket, -/
  | start (enabled : Bool) (runtime : Option (List Byte)) (pid : Int)
  /-- and `stop` is called. -/
  | stop
  | call (r : Reply)
  | thread (r : Reply)
  | setPath (path : Option (List Byte))
  | foreignOpen (fd : Nat)
  | foreignClose (fd : Nat)
  /-- Another element derives its path. -/
  | otherBind

/-- The base class stops an element that it started before it starts it again. The bound of `FD_SETSIZE` on what `select`
takes is left out, and so are an `unlink` that fails and a path that is replaced in the middle of `start` or `stop`. -/
def controlStep (s : ControlState) : ControlEvent → Option ControlState
  | .start enabled runtime pid =>
    if s.site = .idle ∧ s.started = false then
      some (if enabled then s.beginBind runtime pid else { s with started := true })
    else none
  | .stop => if s.site = .idle then some { s with site := .stop } else none
  | .call r => callStep s r
  | .thread r => threadStep s r
  | .setPath path => if s.site = .idle then some { s with path := path } else none
  | .foreignOpen fd => if s.descriptors fd = none then some (s.opened fd .foreign) else none
  | .foreignClose fd =>
    if s.descriptors fd = some .foreign then some { s with descriptors := Function.update s.descriptors fd none }
    else none
  | .otherBind => some { s with seq := s.seq + 1 }

/-- Two elements of a process have two default paths, until the counter is back where it was. -/
theorem defaultSocketPath_inj {runtime : List Byte} {pid : Int} {id id' : UInt32}
    (h : defaultSocketPath runtime pid id = defaultSocketPath runtime pid id') : id = id' := by
  unfold defaultSocketPath at h
  have hdigits := List.append_cancel_left (List.append_cancel_right h)
  exact UInt32.toNat_inj.mp (ascii_toDigits_inj hdigits)

/-! ## What an operation does -/

/-- What the operation of a call at this site can leave. -/
inductive Called (s : ControlState) : CallSite → ControlState → Prop where
  | socket (fd : Nat) (hfree : s.descriptors fd = none) :
      Called s .socket { s.opened fd .listening with site := .bind fd }
  | socketFailed : Called s .socket s.bindFailed
  | bind (fd : Nat) (bound : ControlState) (hbound : bound = s.unlinked.use fd .listening) :
      Called s (.bind fd) { bound with files := bound.path.toList ++ bound.files, site := .chmod fd }
  | bindFailed (fd : Nat) : Called s (.bind fd) ((s.unlinked.use fd .listening).closed fd .listening).bindFailed
  | chmod (fd : Nat) : Called s (.chmod fd) { s with site := .listen fd }
  | chmodFailed (fd : Nat) : Called s (.chmod fd) (s.closed fd .listening).unlinked.bindFailed
  | listen (fd : Nat) : Called s (.listen fd) { s.use fd .listening with site := .publish fd }
  | listenFailed (fd : Nat) :
      Called s (.listen fd) ((s.use fd .listening).closed fd .listening).unlinked.bindFailed
  | publish (fd : Nat) :
      Called s (.publish fd) { s with
        socket := some fd
        faults := (s.socket.map Fault.lostSocket).toList ++ s.faults
        site := .setRunning }
  | setRunning : Called s .setRunning { s with running := true, site := .spawn }
  | spawn :
      Called s .spawn { s with
        thread := some .loop
        faults := (s.thread.map fun _ => Fault.lostThread).toList ++ s.faults
        started := true
        site := .idle }
  | stop (site : CallSite) (hsite : site = .join ∨ site = .nudge) :
      Called s .stop { s with running := false, site := site }
  | stopStill (hrunning : s.running = false) : Called s .stop { s with site := .unbind }
  | nudge (fd : Nat) (hfree : s.descriptors fd = none) :
      Called s .nudge { s.opened fd .wakeup with site := .connect fd }
  | nudgeFailed : Called s .nudge { s with site := .join }
  | connect (fd : Nat) : Called s (.connect fd) { s.use fd .wakeup with site := .closeNudge fd }
  | closeNudge (fd : Nat) : Called s (.closeNudge fd) { s.closed fd .wakeup with site := .join }
  | joinNone (hthread : s.thread = none) : Called s .join { s with site := .unbind }
  | join (hthread : s.thread = some .exited) : Called s .join { s with thread := none, site := .unbind }
  | unbindNone (hsocket : s.socket = none) : Called s .unbind { s with site := .unlink }
  | unbind (fd : Nat) (hsocket : s.socket = some fd) :
      Called s .unbind { s.closed fd .listening with socket := none, site := .unlink }
  | unlink : Called s .unlink { s.unlinked with started := false, site := .idle }

/-- What the operation of the thread at this site can leave. -/
inductive Turned (s : ControlState) : ThreadSite → ControlState → Prop where
  | loop (site : ThreadSite) (hsite : site = if s.running then .snapshot else .exited) :
      Turned s .loop { s with thread := some site }
  | snapshot : Turned s .snapshot { s with thread := some (s.socket.elim .exited .select) }
  | select (fd : Nat) (site : ThreadSite) (hsite : site = .exited ∨ site = .loop ∨ site = .accept fd) :
      Turned s (.select fd) { s.use fd .listening with thread := some site }
  | accept (fd client : Nat) (hfree : s.descriptors client = none) :
      Turned s (.accept fd) { (s.use fd .listening).opened client .client with thread := some (.read client) }
  | acceptFailed (fd : Nat) : Turned s (.accept fd) { s.use fd .listening with thread := some .loop }
  | read (client : Nat) (site : ThreadSite) (hsite : site = .send client ∨ site = .close client) :
      Turned s (.read client) { s.use client .client with thread := some site }
  | send (client : Nat) : Turned s (.send client) { s.use client .client with thread := some (.close client) }
  | close (client : Nat) : Turned s (.close client) { s.closed client .client with thread := some .loop }

section Operations
variable {s s' : ControlState} {r : Reply}

theorem callStep_called (hs : callStep s r = some s') : Called s s.site s' := by
  unfold callStep at hs
  generalize s.site = site at hs ⊢
  cases site with
  | idle => exact absurd hs nofun
  | socket =>
    cases r with
    | ok | fails | timeout =>
      obtain rfl := Option.some.inj hs
      exact .socketFailed
    | descriptor fd =>
      simp only at hs
      split at hs
      · next hfree =>
        obtain rfl := Option.some.inj hs
        exact .socket fd hfree
      · exact absurd hs nofun
  | bind fd =>
    simp only at hs
    split at hs
    · obtain rfl := Option.some.inj hs
      exact .bind fd _ rfl
    · obtain rfl := Option.some.inj hs
      exact .bindFailed fd
  | chmod fd =>
    simp only at hs
    split at hs
    · obtain rfl := Option.some.inj hs
      exact .chmod fd
    · obtain rfl := Option.some.inj hs
      exact .chmodFailed fd
  | listen fd =>
    simp only at hs
    split at hs
    · obtain rfl := Option.some.inj hs
      exact .listen fd
    · obtain rfl := Option.some.inj hs
      exact .listenFailed fd
  | publish fd =>
    obtain rfl := Option.some.inj hs
    exact .publish fd
  | setRunning =>
    obtain rfl := Option.some.inj hs
    exact .setRunning
  | spawn =>
    obtain rfl := Option.some.inj hs
    exact .spawn
  | stop =>
    simp only at hs
    split at hs
    · obtain rfl := Option.some.inj hs
      refine .stop _ ?_
      split
      · exact .inl rfl
      · exact .inr rfl
    · next hrunning =>
      obtain rfl := Option.some.inj hs
      exact .stopStill (Bool.eq_false_of_not_eq_true hrunning)
  | nudge =>
    cases r with
    | ok | fails | timeout =>
      obtain rfl := Option.some.inj hs
      exact .nudgeFailed
    | descriptor fd =>
      simp only at hs
      split at hs
      · next hfree =>
        obtain rfl := Option.some.inj hs
        exact .nudge fd hfree
      · exact absurd hs nofun
  | connect fd =>
    obtain rfl := Option.some.inj hs
    exact .connect fd
  | closeNudge fd =>
    obtain rfl := Option.some.inj hs
    exact .closeNudge fd
  | join =>
    simp only at hs
    split at hs
    · next hthread =>
      obtain rfl := Option.some.inj hs
      exact .joinNone hthread
    · next hthread =>
      obtain rfl := Option.some.inj hs
      exact .join hthread
    · exact absurd hs nofun
  | unbind =>
    simp only at hs
    split at hs
    · next hsocket =>
      obtain rfl := Option.some.inj hs
      exact .unbindNone hsocket
    · next fd hsocket =>
      obtain rfl := Option.some.inj hs
      exact .unbind fd hsocket
  | unlink =>
    obtain rfl := Option.some.inj hs
    exact .unlink

theorem threadStep_turned (hs : threadStep s r = some s') : ∃ site, s.thread = some site ∧ Turned s site s' := by
  unfold threadStep at hs
  generalize s.thread = thread at hs ⊢
  cases thread with
  | none => exact absurd hs nofun
  | some site =>
    refine ⟨site, rfl, ?_⟩
    cases site with
    | exited => exact absurd hs nofun
    | loop =>
      obtain rfl := Option.some.inj hs
      exact .loop _ rfl
    | snapshot =>
      obtain rfl := Option.some.inj hs
      exact .snapshot
    | select fd =>
      cases r with
      | fails =>
        obtain rfl := Option.some.inj hs
        exact .select fd _ (.inl rfl)
      | timeout =>
        obtain rfl := Option.some.inj hs
        exact .select fd _ (.inr (.inl rfl))
      | ok | descriptor =>
        obtain rfl := Option.some.inj hs
        exact .select fd _ (.inr (.inr rfl))
    | accept fd =>
      cases r with
      | ok | fails | timeout =>
        obtain rfl := Option.some.inj hs
        exact .acceptFailed fd
      | descriptor client =>
        simp only at hs
        split at hs
        · next hfree =>
          obtain rfl := Option.some.inj hs
          exact .accept fd client hfree
        · exact absurd hs nofun
    | read client =>
      obtain rfl := Option.some.inj hs
      refine .read client _ ?_
      split
      · exact .inl rfl
      · exact .inr rfl
    | send client =>
      obtain rfl := Option.some.inj hs
      exact .send client
    | close client =>
      obtain rfl := Option.some.inj hs
      exact .close client

end Operations

/-! ## Descriptors -/

section Table
variable {d : Nat → Option Descriptor} {kind other : Descriptor} {owner : Option Nat} {fd : Nat}

/-- The descriptor of this kind is that of the owner. -/
def Holds (d : Nat → Option Descriptor) (kind : Descriptor) (owner : Option Nat) : Prop :=
  ∀ fd, d fd = some kind ↔ owner = some fd

theorem Holds.open (h : Holds d kind none) : Holds (Function.update d fd (some kind)) kind (some fd) := by
  intro n
  by_cases hn : n = fd
  · simp [hn]
  · rw [Function.update_of_ne hn, h n]
    simp [Ne.symm hn]

theorem Holds.close (h : Holds d kind (some fd)) : Holds (Function.update d fd none) kind none := by
  intro n
  by_cases hn : n = fd
  · simp [hn]
  · rw [Function.update_of_ne hn, h n]
    simp [Ne.symm hn]

/-- What is written at another descriptor. -/
theorem Holds.beside (h : Holds d kind owner) {entry : Option Descriptor} (hbefore : d fd ≠ some kind)
    (hentry : entry ≠ some kind) : Holds (Function.update d fd entry) kind owner := by
  intro n
  by_cases hn : n = fd
  · rw [hn, Function.update_self, ← h fd]
    exact iff_of_false hentry hbefore
  · rw [Function.update_of_ne hn]
    exact h n

end Table

/-! ## The invariant -/

/-- The descriptor on which the thread polls. -/
def ThreadSite.polls : ThreadSite → Option Nat
  | .select fd | .accept fd => some fd
  | _ => none

/-- The connection that the thread serves. -/
def ThreadSite.client : ThreadSite → Option Nat
  | .read fd | .send fd | .close fd => some fd
  | _ => none

/-- The socket that is not published yet. -/
def CallSite.binds : CallSite → Option Nat
  | .bind fd | .chmod fd | .listen fd | .publish fd => some fd
  | _ => none

def CallSite.wakeup : CallSite → Option Nat
  | .connect fd | .closeNudge fd => some fd
  | _ => none

/-- What a call finds at each of its operations. -/
def CallSite.Fits (started running threaded : Bool) (socket : Option Nat) : CallSite → Prop
  | .idle => running = threaded ∧ (started = false → threaded = false ∧ socket = none)
  | .socket | .bind _ | .chmod _ | .listen _ | .publish _ =>
    running = false ∧ threaded = false ∧ socket = none
  | .setRunning => running = false ∧ threaded = false
  | .spawn => running = true ∧ threaded = false
  | .stop => running = threaded
  | .nudge | .connect _ | .closeNudge _ | .join => running = false
  | .unbind => running = false ∧ threaded = false
  | .unlink => running = false ∧ threaded = false ∧ socket = none

structure Sound (s : ControlState) : Prop where
  faults : s.faults = []
  listening : Holds s.descriptors .listening (s.site.binds <|> s.socket)
  client : Holds s.descriptors .client (s.thread.bind ThreadSite.client)
  wakeup : Holds s.descriptors .wakeup s.site.wakeup
  polls : ∀ fd, s.thread.bind ThreadSite.polls = some fd → s.socket = some fd
  fits : s.site.Fits s.started s.running s.thread.isSome s.socket

theorem sound_init : Sound .init where
  faults := rfl
  listening fd := by simp [ControlState.init, CallSite.binds]
  client fd := by simp [ControlState.init]
  wakeup fd := by simp [ControlState.init, CallSite.wakeup]
  polls fd h := absurd h nofun
  fits := ⟨rfl, fun _ => ⟨rfl, rfl⟩⟩

/-- The descriptor is what it is taken for. -/
theorem ControlState.use_eq {s : ControlState} {fd : Nat} {kind : Descriptor} (h : s.descriptors fd = some kind) :
    s.use fd kind = s := if_pos h

theorem ControlState.closed_eq {s : ControlState} {fd : Nat} {kind : Descriptor} (h : s.descriptors fd = some kind) :
    s.closed fd kind = { s with descriptors := Function.update s.descriptors fd none } := by
  unfold ControlState.closed
  rw [s.use_eq h]

section Sounds
variable {s s' : ControlState}

/-- What opens and closes nothing. -/
theorem Sound.moved (h : Sound s) (hfaults : s'.faults = s.faults) (hdescriptors : s'.descriptors = s.descriptors)
    (hlistener : (s'.site.binds <|> s'.socket) = (s.site.binds <|> s.socket))
    (hclient : s'.thread.bind ThreadSite.client = s.thread.bind ThreadSite.client)
    (hwakeup : s'.site.wakeup = s.site.wakeup)
    (hpolls : ∀ fd, s'.thread.bind ThreadSite.polls = some fd → s'.socket = some fd)
    (hfits : s'.site.Fits s'.started s'.running s'.thread.isSome s'.socket) : Sound s' where
  faults := hfaults.trans h.faults
  listening := by
    rw [hdescriptors, hlistener]
    exact h.listening
  client := by
    rw [hdescriptors, hclient]
    exact h.client
  wakeup := by
    rw [hdescriptors, hwakeup]
    exact h.wakeup
  polls := hpolls
  fits := hfits

/-- A file is unlinked. -/
theorem Sound.refiled (h : Sound s) (files : List (List Byte)) : Sound { s with files := files } :=
  h.moved rfl rfl rfl rfl rfl h.polls h.fits

theorem Sound.unlinked (h : Sound s) : Sound s.unlinked := h.refiled _

/-- The socket that is being bound is closed again. -/
theorem Sound.closeBind {fd : Nat} (h : Sound s) (hsite : s.site.binds = some fd)
    (hfits : s.running = false ∧ s.thread = none ∧ s.socket = none) : Sound (s.closed fd .listening).bindFailed := by
  have hlistening := h.listening
  rw [hsite] at hlistening
  have hown := (hlistening fd).mpr rfl
  rw [s.closed_eq hown]
  obtain ⟨hrunning, hthread, hsocket⟩ := hfits
  have hnudge : s.site.wakeup = none := by
    cases hcase : s.site <;> rw [hcase] at hsite <;> first | rfl | exact absurd hsite nofun
  refine ⟨h.faults, ?_, h.client.beside (by rw [hown]; simp) nofun, ?_, h.polls, ?_⟩
  · show Holds _ _ s.socket
    rw [hsocket]
    exact hlistening.close
  · have hwakeup := h.wakeup
    rw [hnudge] at hwakeup
    exact hwakeup.beside (by rw [hown]; simp) nofun
  · show s.running = s.thread.isSome ∧ _
    rw [hrunning, hthread]
    exact ⟨rfl, fun hstarted => absurd hstarted nofun⟩

theorem Sound.bound {fd : Nat} (h : Sound s) (hsite : s.site.binds = some fd) : s.descriptors fd = some .listening := by
  have hlistening := h.listening
  rw [hsite] at hlistening
  exact (hlistening fd).mpr rfl

theorem isNone_of_isSome_eq_false {thread : Option ThreadSite} (h : thread.isSome = false) : thread = none := by
  rwa [Option.isSome_eq_false_iff, Option.isNone_iff_eq_none] at h

/-- The call goes on, and opens and closes nothing. -/
theorem Sound.goes {site site' : CallSite} {started running : Bool} {files : List (List Byte)} (h : Sound s)
    (hsite : s.site = site) (hbinds : site'.binds = site.binds) (hwakeup : site'.wakeup = site.wakeup)
    (hfits : site'.Fits started running s.thread.isSome s.socket) :
    Sound { s with site := site', started := started, running := running, files := files } := by
  refine h.moved rfl rfl ?_ rfl ?_ h.polls hfits
  · rw [hsite]
    exact congrArg (· <|> s.socket) hbinds
  · rw [hsite]
    exact hwakeup

theorem Sound.socketFailed (h : Sound s) (hsite : s.site = .socket) : Sound s.bindFailed := by
  have hfits := h.fits
  rw [hsite] at hfits
  exact h.goes hsite rfl rfl ⟨hfits.1.trans hfits.2.1.symm, fun hstarted => absurd hstarted nofun⟩

/-- A socket that is bound and listens is published behind no other one, and no thread polls yet. -/
theorem Sound.publish {fd : Nat} (h : Sound s) (hsite : s.site = .publish fd) :
    Sound { s with
      socket := some fd
      faults := (s.socket.map Fault.lostSocket).toList ++ s.faults
      site := .setRunning } := by
  have hfits := h.fits
  rw [hsite] at hfits
  obtain ⟨hrunning, hthread, hsocket⟩ := hfits
  refine h.moved ?_ rfl ?_ rfl ?_ ?_ ⟨hrunning, hthread⟩
  · rw [hsocket]
    rfl
  · rw [hsite]
    rfl
  · rw [hsite]
    rfl
  · intro fd' hpolls
    rw [show s.thread.bind ThreadSite.polls = none by rw [isNone_of_isSome_eq_false hthread]; rfl] at hpolls
    exact absurd hpolls nofun

theorem Sound.spawn (h : Sound s) (hsite : s.site = .spawn) :
    Sound { s with
      thread := some .loop
      faults := (s.thread.map fun _ => Fault.lostThread).toList ++ s.faults
      started := true
      site := .idle } := by
  have hfits := h.fits
  rw [hsite] at hfits
  obtain ⟨hrunning, hthread⟩ := hfits
  have hnone := isNone_of_isSome_eq_false hthread
  refine h.moved ?_ rfl ?_ ?_ ?_ (fun _ hpolls => absurd hpolls nofun)
    ⟨hrunning, fun hstarted => absurd hstarted nofun⟩
  · rw [hnone]
    rfl
  · rw [hsite]
    rfl
  · rw [hnone]
    rfl
  · rw [hsite]
    rfl

theorem Sound.unbind {fd : Nat} (h : Sound s) (hsite : s.site = .unbind) (hsocket : s.socket = some fd) :
    Sound { s.closed fd .listening with socket := none, site := .unlink } := by
  have hfits := h.fits
  have hlistening := h.listening
  have hwakeup := h.wakeup
  rw [hsite] at hfits hlistening hwakeup
  rw [hsocket] at hlistening
  obtain ⟨hrunning, hthread⟩ := hfits
  have hown := (hlistening fd).mpr rfl
  rw [ControlState.closed_eq hown]
  refine ⟨h.faults, hlistening.close, h.client.beside (by rw [hown]; simp) nofun,
    hwakeup.beside (by rw [hown]; simp) nofun, fun fd' hpolls => ?_, hrunning, hthread, rfl⟩
  rw [show s.thread.bind ThreadSite.polls = none by rw [isNone_of_isSome_eq_false hthread]; rfl] at hpolls
  exact absurd hpolls nofun

theorem Sound.call {r : Reply} (h : Sound s) (hs : callStep s r = some s') : Sound s' := by
  have hcalled := callStep_called hs
  have hfits := h.fits
  have hlistening := h.listening
  have hwakeup := h.wakeup
  have hbound : ∀ {fd}, s.site.binds = some fd → s.descriptors fd = some .listening := h.bound
  generalize hsite : s.site = site at hcalled hfits hlistening hwakeup hbound
  cases hcalled with
  | socket fd hfree =>
    obtain ⟨hrunning, hthread, hsocket⟩ := hfits
    rw [hsocket] at hlistening
    exact ⟨h.faults, hlistening.open, h.client.beside (by rw [hfree]; simp) (by simp),
      hwakeup.beside (by rw [hfree]; simp) (by simp), h.polls, hrunning, hthread, hsocket⟩
  | socketFailed => exact h.socketFailed hsite
  | bind fd bound hunlinked =>
    have hown : s.unlinked.descriptors fd = some .listening := hbound rfl
    rw [hunlinked, ControlState.use_eq hown]
    exact h.goes hsite rfl rfl hfits
  | bindFailed fd =>
    have hown : s.unlinked.descriptors fd = some .listening := hbound rfl
    rw [ControlState.use_eq hown]
    obtain ⟨hrunning, hthread, hsocket⟩ := hfits
    exact h.unlinked.closeBind (congrArg CallSite.binds hsite) ⟨hrunning, isNone_of_isSome_eq_false hthread, hsocket⟩
  | chmod fd => exact h.goes hsite rfl rfl hfits
  | chmodFailed fd =>
    obtain ⟨hrunning, hthread, hsocket⟩ := hfits
    exact (h.closeBind (by rw [hsite]; rfl) ⟨hrunning, isNone_of_isSome_eq_false hthread, hsocket⟩).unlinked
  | listen fd =>
    rw [ControlState.use_eq (hbound rfl)]
    exact h.goes hsite rfl rfl hfits
  | listenFailed fd =>
    rw [ControlState.use_eq (hbound rfl)]
    obtain ⟨hrunning, hthread, hsocket⟩ := hfits
    exact (h.closeBind (by rw [hsite]; rfl) ⟨hrunning, isNone_of_isSome_eq_false hthread, hsocket⟩).unlinked
  | publish fd => exact h.publish hsite
  | setRunning => exact h.goes hsite rfl rfl ⟨rfl, hfits.2⟩
  | spawn => exact h.spawn hsite
  | stop next hnext => rcases hnext with rfl | rfl <;> exact h.goes hsite rfl rfl rfl
  | stopStill hrunning => exact h.goes hsite rfl rfl ⟨hrunning, hfits.symm.trans hrunning⟩
  | nudge fd hfree =>
    exact ⟨h.faults, hlistening.beside (by rw [hfree]; simp) (by simp),
      h.client.beside (by rw [hfree]; simp) (by simp), hwakeup.open, h.polls, hfits⟩
  | nudgeFailed => exact h.goes hsite rfl rfl hfits
  | connect fd =>
    rw [ControlState.use_eq ((hwakeup fd).mpr rfl)]
    exact h.goes hsite rfl rfl hfits
  | closeNudge fd =>
    have hown := (hwakeup fd).mpr rfl
    rw [ControlState.closed_eq hown]
    exact ⟨h.faults, hlistening.beside (by rw [hown]; simp) nofun, h.client.beside (by rw [hown]; simp) nofun,
      hwakeup.close, h.polls, hfits⟩
  | joinNone hthread => exact h.goes hsite rfl rfl ⟨hfits, congrArg Option.isSome hthread⟩
  | join hthread =>
    refine h.moved rfl rfl ?_ ?_ ?_ (fun _ hpolls => absurd hpolls nofun) ⟨hfits, rfl⟩
    · rw [hsite]
      rfl
    · rw [hthread]
      rfl
    · rw [hsite]
      rfl
  | unbindNone hsocket => exact h.goes hsite rfl rfl ⟨hfits.1, hfits.2, hsocket⟩
  | unbind fd hsocket => exact h.unbind hsite hsocket
  | unlink =>
    obtain ⟨hrunning, hthread, hsocket⟩ := hfits
    exact h.goes hsite rfl rfl ⟨hrunning.trans hthread.symm, fun _ => ⟨hthread, hsocket⟩⟩

theorem Sound.listens {fd : Nat} (h : Sound s) (hthread : s.thread.isSome = true) (hsocket : s.socket = some fd) :
    s.descriptors fd = some .listening := by
  have hfits := h.fits
  have hlistening := h.listening
  rw [hthread] at hfits
  cases hsite : s.site with
  | socket | bind | chmod | listen | publish =>
    rw [hsite] at hfits
    exact absurd hfits.2.1 nofun
  | _ =>
    rw [hsite] at hlistening
    exact (hlistening fd).mpr hsocket

/-- The thread goes on, and opens and closes nothing. -/
theorem Sound.turns {site : ThreadSite} (h : Sound s) (hthread : s.thread.isSome = true)
    (hclient : site.client = s.thread.bind ThreadSite.client) (hpolls : ∀ fd, site.polls = some fd → s.socket = some fd) :
    Sound { s with thread := some site } :=
  h.moved rfl rfl rfl hclient rfl hpolls (by rw [← show s.thread.isSome = (some site).isSome from hthread]; exact h.fits)

theorem Sound.thread {r : Reply} (h : Sound s) (hs : threadStep s r = some s') : Sound s' := by
  obtain ⟨site, hthread, hturned⟩ := threadStep_turned hs
  have hsome : s.thread.isSome = true := by rw [hthread]; rfl
  have hclient := h.client
  have hfits := h.fits
  have hpolls : ∀ fd, site.polls = some fd → s.descriptors fd = some .listening := fun fd hfd =>
    h.listens hsome (h.polls fd (by rw [hthread]; exact hfd))
  rw [hthread] at hclient hfits
  cases hturned with
  | loop next hnext =>
    rw [hnext]
    split
    · exact h.turns hsome (by rw [hthread]; rfl) nofun
    · exact h.turns hsome (by rw [hthread]; rfl) nofun
  | snapshot =>
    refine h.turns hsome ?_ ?_
    · rw [hthread]
      cases s.socket <;> rfl
    · cases s.socket with
      | none => exact nofun
      | some fd => exact fun _ hpolls => hpolls
  | select fd next hnext =>
    rw [ControlState.use_eq (hpolls fd rfl)]
    rcases hnext with rfl | rfl | rfl
    · exact h.turns hsome (by rw [hthread]; rfl) nofun
    · exact h.turns hsome (by rw [hthread]; rfl) nofun
    · exact h.turns hsome (by rw [hthread]; rfl) fun fd' hfd' => h.polls fd' (by rw [hthread]; exact hfd')
  | accept fd client hfree =>
    rw [ControlState.use_eq (hpolls fd rfl)]
    exact ⟨h.faults, h.listening.beside (by rw [hfree]; simp) (by simp), hclient.open,
      h.wakeup.beside (by rw [hfree]; simp) (by simp), nofun, hfits⟩
  | acceptFailed fd =>
    rw [ControlState.use_eq (hpolls fd rfl)]
    exact h.turns hsome (by rw [hthread]; rfl) nofun
  | read client next hnext =>
    rw [ControlState.use_eq ((hclient client).mpr rfl)]
    rcases hnext with rfl | rfl
    · exact h.turns hsome (by rw [hthread]; rfl) nofun
    · exact h.turns hsome (by rw [hthread]; rfl) nofun
  | send client =>
    rw [ControlState.use_eq ((hclient client).mpr rfl)]
    exact h.turns hsome (by rw [hthread]; rfl) nofun
  | close client =>
    have hown : s.descriptors client = some .client := (hclient client).mpr rfl
    rw [ControlState.closed_eq hown]
    exact ⟨h.faults, h.listening.beside (by rw [hown]; simp) nofun, hclient.close,
      h.wakeup.beside (by rw [hown]; simp) nofun, nofun, hfits⟩

/-- `start` without a control socket. -/
theorem Sound.startedOnly (h : Sound s) (hsite : s.site = .idle) : Sound { s with started := true } := by
  have hfits := h.fits
  rw [hsite] at hfits
  refine h.moved rfl rfl rfl rfl rfl h.polls ?_
  rw [hsite]
  exact ⟨hfits.1, fun hstarted => absurd hstarted nofun⟩

theorem Sound.beginBind (h : Sound s) (hsite : s.site = .idle) (hstarted : s.started = false)
    (runtime : Option (List Byte)) (pid : Int) : Sound (s.beginBind runtime pid) := by
  have hfits := h.fits
  rw [hsite] at hfits
  obtain ⟨hrunning, hrest⟩ := hfits
  obtain ⟨hthread, hsocket⟩ := hrest hstarted
  have hbegun : ∀ path seq (long : Prop) [Decidable long], Sound { s with
      path := path, seq := seq, started := decide long, site := if long then .idle else .socket } := by
    intro path seq long _
    refine h.moved rfl rfl ?_ rfl ?_ h.polls ?_
    · rw [hsite]
      split <;> rfl
    · rw [hsite]
      split <;> rfl
    · split
      · exact ⟨hrunning, fun _ => ⟨hthread, hsocket⟩⟩
      · exact ⟨hrunning.trans hthread, hthread, hsocket⟩
  unfold ControlState.beginBind
  split
  · exact hbegun s.path s.seq _
  · split
    · exact h.startedOnly hsite
    · exact h.startedOnly hsite
    · exact hbegun _ _ _

theorem Sound.step {e : ControlEvent} (h : Sound s) (hs : controlStep s e = some s') : Sound s' := by
  unfold controlStep at hs
  cases e with
  | start enabled runtime pid =>
    simp only at hs
    split at hs
    · next hready =>
      obtain rfl := Option.some.inj hs
      split
      · exact h.beginBind hready.1 hready.2 runtime pid
      · exact h.startedOnly hready.1
    · exact absurd hs nofun
  | stop =>
    simp only at hs
    split at hs
    · next hsite =>
      obtain rfl := Option.some.inj hs
      have hfits := h.fits
      rw [hsite] at hfits
      exact h.moved rfl rfl (by rw [hsite]; rfl) rfl (by rw [hsite]; rfl) h.polls hfits.1
    · exact absurd hs nofun
  | call r => exact h.call hs
  | thread r => exact h.thread hs
  | setPath path =>
    simp only at hs
    split at hs
    · obtain rfl := Option.some.inj hs
      exact h.moved rfl rfl rfl rfl rfl h.polls h.fits
    · exact absurd hs nofun
  | foreignOpen fd =>
    simp only at hs
    split at hs
    · next hfree =>
      obtain rfl := Option.some.inj hs
      exact ⟨h.faults, h.listening.beside (by rw [hfree]; simp) (by simp), h.client.beside (by rw [hfree]; simp) (by simp),
        h.wakeup.beside (by rw [hfree]; simp) (by simp), h.polls, h.fits⟩
    · exact absurd hs nofun
  | foreignClose fd =>
    simp only at hs
    split at hs
    · next hforeign =>
      obtain rfl := Option.some.inj hs
      exact ⟨h.faults, h.listening.beside (by rw [hforeign]; simp) nofun, h.client.beside (by rw [hforeign]; simp) nofun,
        h.wakeup.beside (by rw [hforeign]; simp) nofun, h.polls, h.fits⟩
    · exact absurd hs nofun
  | otherBind =>
    obtain rfl := Option.some.inj hs
    exact h.moved rfl rfl rfl rfl rfl h.polls h.fits

end Sounds

theorem sound_run {events : List ControlEvent} {s : ControlState} (h : Runs.run controlStep .init events = some s) : Sound s :=
  Runs.run_induction controlStep (fun _ _ _ hinv hs => hinv.step hs) sound_init h

/-- **In every run of `start`, `stop` and the thread**, whatever the rest of the process opens and closes, no operation
is on a descriptor that was closed or is another one by now, and no socket and no thread is forgotten; the thread polls
the published socket and no other; and an element that is not started has no thread and no descriptor. -/
theorem control_sound {events : List ControlEvent} {s : ControlState} (h : Runs.run controlStep .init events = some s) :
    s.faults = [] ∧
    (∀ fd, s.thread.bind ThreadSite.polls = some fd → s.socket = some fd ∧ s.descriptors fd = some .listening) ∧
    (s.site = .idle → s.started = false →
      s.thread = none ∧ s.running = false ∧ s.socket = none ∧
        ∀ fd, s.descriptors fd = none ∨ s.descriptors fd = some .foreign) := by
  have hsound := sound_run h
  refine ⟨hsound.faults, fun fd hpolls => ?_, fun hsite hstarted => ?_⟩
  · have hsocket := hsound.polls fd hpolls
    obtain ⟨site, hthread, -⟩ := Option.bind_eq_some_iff.mp hpolls
    exact ⟨hsocket, hsound.listens (by rw [hthread]; rfl) hsocket⟩
  · obtain ⟨-, hlistening, hclient, hwakeup, -, hfits⟩ := hsound
    rw [hsite] at hfits hlistening hwakeup
    obtain ⟨hrunning, hrest⟩ := hfits
    obtain ⟨hthread, hsocket⟩ := hrest hstarted
    have hnone := isNone_of_isSome_eq_false hthread
    rw [hnone] at hclient
    rw [hsocket] at hlistening
    refine ⟨hnone, hrunning.trans hthread, hsocket, fun fd => ?_⟩
    cases hkind : s.descriptors fd with
    | none => exact .inl rfl
    | some kind =>
      cases kind with
      | listening => exact absurd ((hlistening fd).mp hkind) nofun
      | client => exact absurd ((hclient fd).mp hkind) nofun
      | wakeup => exact absurd ((hwakeup fd).mp hkind) nofun
      | foreign => exact .inr rfl

/-- The element is started, serves a connection, and is stopped while the next one waits. -/
def servedEvents : List ControlEvent :=
  [.start true (some (ascii ['/', 'r'])) 7, .call (.descriptor 3), .call .ok, .call .ok, .call .ok, .call .ok, .call .ok,
    .call .ok, .thread .ok, .thread .ok, .thread .ok, .thread (.descriptor 4), .thread .ok, .thread .ok, .thread .ok,
    .thread .ok, .thread .ok, .stop, .call .ok, .call (.descriptor 4), .call .ok, .call .ok, .foreignOpen 4,
    .thread .ok, .thread (.descriptor 5), .thread .fails, .thread .ok, .thread .ok, .call .ok, .call .ok, .foreignOpen 3,
    .call .ok]

theorem control_sound_served : ∃ s, Runs.run controlStep .init servedEvents = some s ∧ s.faults = [] ∧ s.thread = none ∧
    ∀ fd, s.descriptors fd = none ∨ s.descriptors fd = some .foreign := by
  obtain ⟨s, hrun, hsite, hstarted⟩ : ∃ s, Runs.run controlStep .init servedEvents = some s ∧ s.site = .idle ∧
      s.started = false := ⟨_, rfl, rfl, rfl⟩
  obtain ⟨hfaults, -, hstopped⟩ := control_sound hrun
  exact ⟨s, hrun, hfaults, (hstopped hsite hstarted).1, (hstopped hsite hstarted).2.2.2⟩

/-! ## The join -/

/-- How many operations the thread has left where it is not to run any longer. -/
def ThreadSite.left : ThreadSite → Nat
  | .exited => 0
  | .loop => 1
  | .close _ => 2
  | .send _ => 3
  | .read _ => 4
  | .accept _ => 5
  | .select _ => 6
  | .snapshot => 7

def ControlState.left (s : ControlState) : Nat := s.thread.elim 0 ThreadSite.left

theorem ThreadSite.left_le (site : ThreadSite) : site.left ≤ 7 := by
  cases site <;> simp [ThreadSite.left]

def ControlEvent.ofThread : ControlEvent → Bool
  | .thread _ => true
  | _ => false

section Join
variable {s s' : ControlState}

/-- Every operation of a thread that is not to run is one less. -/
theorem thread_left {r : Reply} (hrunning : s.running = false) (hs : threadStep s r = some s') : s'.left < s.left := by
  obtain ⟨site, hthread, hturned⟩ := threadStep_turned hs
  unfold ControlState.left
  rw [hthread]
  cases hturned with
  | loop next hnext =>
    rw [hnext, hrunning]
    exact Nat.zero_lt_one
  | snapshot =>
    show (s.socket.elim ThreadSite.exited ThreadSite.select).left < 7
    cases s.socket <;> simp [ThreadSite.left]
  | select fd next hnext => rcases hnext with rfl | rfl | rfl <;> simp [ThreadSite.left]
  | read client next hnext => rcases hnext with rfl | rfl <;> simp [ThreadSite.left]
  | accept | acceptFailed | send | close => simp [ThreadSite.left]

/-- What else happens while `stop` joins the thread leaves the thread where it is, or gone. -/
theorem join_left {e : ControlEvent} (hsite : s.site = .join) (he : e.ofThread = false) (hs : controlStep s e = some s') :
    s'.left ≤ s.left := by
  unfold controlStep at hs
  cases e with
  | thread => exact absurd he nofun
  | start | stop | setPath =>
    simp only [hsite] at hs
    exact absurd hs nofun
  | call r =>
    have hcalled := callStep_called hs
    rw [hsite] at hcalled
    cases hcalled with
    | joinNone => exact Nat.le_refl _
    | join => exact Nat.zero_le _
  | foreignOpen | foreignClose =>
    simp only at hs
    split at hs
    · obtain rfl := Option.some.inj hs
      exact Nat.le_refl _
    · exact absurd hs nofun
  | otherBind =>
    obtain rfl := Option.some.inj hs
    exact Nat.le_refl _

theorem join_run {events : List ControlEvent} (h : Sound s)
    (hjoin : Runs.Along controlStep (fun s _ => s.site = .join) s events)
    (hrun : Runs.run controlStep s events = some s') : events.countP ControlEvent.ofThread + s'.left ≤ s.left := by
  induction events generalizing s with
  | nil =>
    obtain rfl := Option.some.inj hrun
    simp
  | cons e events ih =>
    obtain ⟨t, hs, hrest⟩ := (Runs.run_cons_eq_some controlStep).mp hrun
    obtain ⟨hsite, hlater⟩ := hjoin
    have hbound := ih (h.step hs) (hlater t hs) hrest
    have hfits := h.fits
    rw [hsite] at hfits
    cases he : e.ofThread with
    | false =>
      have hless := join_left hsite he hs
      rw [List.countP_cons_of_neg (by rw [he]; exact Bool.false_ne_true)]
      omega
    | true =>
      cases e with
      | thread r =>
        have hless := thread_left hfits hs
        rw [List.countP_cons_of_pos he]
        omega
      | _ => exact absurd he nofun

/-- The operation of the thread that comes next can be made. -/
theorem thread_ready (hthread : s.thread.isSome = true) (hexited : s.thread ≠ some .exited) :
    ∃ s', threadStep s .fails = some s' := by
  unfold threadStep
  cases hcase : s.thread with
  | none =>
    rw [hcase] at hthread
    exact absurd hthread nofun
  | some site =>
    cases site with
    | exited => exact absurd hcase hexited
    | _ => exact ⟨_, rfl⟩

end Join

/-! ## The socket file -/

/-- The socket file is that of the path; there is none in front of the call that binds it, and behind the one that
unlinks it. -/
structure Filed (s : ControlState) : Prop where
  own : ∀ file ∈ s.files, s.path = some file
  none : s.site = .socket ∨ s.site = .idle ∧ s.started = false → s.files = []

theorem filed_init : Filed .init := ⟨fun _ hfile => absurd hfile List.not_mem_nil, fun _ => rfl⟩

theorem Filed.empty {s : ControlState} (h : s.files = []) : Filed s where
  own file hfile := by
    rw [h] at hfile
    exact absurd hfile List.not_mem_nil
  none _ := h

theorem Filed.unlinked {s t : ControlState} (h : Filed s) (hfiles : t.files = s.files) (hpath : t.path = s.path) :
    t.unlinked.files = [] := by
  unfold ControlState.unlinked
  rw [hfiles, hpath]
  exact List.filter_eq_nil_iff.mpr fun file hfile => by simp [h.own file hfile]

/-- The path of a bound socket is not replaced. -/
def KeepsPath (s : ControlState) : ControlEvent → Prop
  | .setPath _ => s.started = false
  | _ => True

section Files
variable {s s' : ControlState}

/-- Neither the file nor the path is touched. -/
theorem Filed.moved (h : Filed s) (hfiles : s'.files = s.files) (hpath : s'.path = s.path)
    (hsite : s'.site = .socket ∨ s'.site = .idle ∧ s'.started = false →
      s.site = .socket ∨ s.site = .idle ∧ s.started = false) :
    Filed s' where
  own := by
    rw [hfiles, hpath]
    exact h.own
  none hin := hfiles.trans (h.none (hsite hin))

theorem use_files (s : ControlState) (fd : Nat) (kind : Descriptor) :
    (s.use fd kind).files = s.files ∧ (s.use fd kind).path = s.path ∧ (s.use fd kind).site = s.site ∧
      (s.use fd kind).started = s.started := by
  unfold ControlState.use
  split <;> exact ⟨rfl, rfl, rfl, rfl⟩

theorem Filed.call {r : Reply} (h : Filed s) (hs : callStep s r = some s') : Filed s' := by
  have hcalled := callStep_called hs
  generalize hsite : s.site = site at hcalled
  cases hcalled with
  | socket | socketFailed => exact .empty (h.none (.inl hsite))
  | bind fd bound hbound =>
    have hnone : bound.files = [] := by rw [hbound, (use_files _ fd .listening).1, h.unlinked rfl rfl]
    refine ⟨fun file hfile => ?_, fun hin => ?_⟩
    · rw [hnone, List.append_nil, Option.mem_toList] at hfile
      exact hfile
    · rcases hin with hin | hin
      · exact absurd hin nofun
      · exact absurd hin.1 nofun
  | bindFailed fd =>
    have hnone : (s.unlinked.use fd .listening).files = [] :=
      (use_files _ fd .listening).1.trans (h.unlinked rfl rfl)
    exact .empty ((use_files _ fd .listening).1.trans hnone)
  | chmodFailed fd =>
    obtain ⟨hfiles, hpath, -⟩ := use_files s fd .listening
    exact .empty (h.unlinked (t := s.closed fd .listening) hfiles hpath)
  | listen fd =>
    obtain ⟨hfiles, hpath, -⟩ := use_files s fd .listening
    exact h.moved hfiles hpath (by simp)
  | listenFailed fd =>
    obtain ⟨hfiles, hpath, -⟩ := use_files s fd .listening
    obtain ⟨hfiles', hpath', -⟩ := use_files (s.use fd .listening) fd .listening
    exact .empty (h.unlinked (t := (s.use fd .listening).closed fd .listening) (hfiles'.trans hfiles) (hpath'.trans hpath))
  | stop next hnext => exact h.moved rfl rfl (by rcases hnext with rfl | rfl <;> simp)
  | connect fd | closeNudge fd =>
    obtain ⟨hfiles, hpath, -⟩ := use_files s fd .wakeup
    exact h.moved hfiles hpath (by simp)
  | unbind fd hsocket =>
    obtain ⟨hfiles, hpath, -⟩ := use_files s fd .listening
    exact h.moved hfiles hpath (by simp)
  | unlink => exact .empty (h.unlinked rfl rfl)
  | chmod | publish | setRunning | spawn | stopStill | nudge | nudgeFailed | joinNone | join | unbindNone =>
    exact h.moved rfl rfl (by simp)

/-- The thread leaves the files alone. -/
theorem threadStep_files {r : Reply} (hs : threadStep s r = some s') :
    s'.files = s.files ∧ s'.path = s.path ∧ s'.site = s.site ∧ s'.started = s.started := by
  obtain ⟨site, -, hturned⟩ := threadStep_turned hs
  cases hturned with
  | loop | snapshot => exact ⟨rfl, rfl, rfl, rfl⟩
  | select fd | accept fd | acceptFailed fd => exact use_files s fd .listening
  | read client | send client | close client => exact use_files s client .client

theorem Filed.step {e : ControlEvent} (h : Filed s) (hkeeps : KeepsPath s e) (hs : controlStep s e = some s') : Filed s' := by
  unfold controlStep at hs
  cases e with
  | start enabled runtime pid =>
    simp only at hs
    split at hs
    · next hready =>
      obtain rfl := Option.some.inj hs
      have hnone : s.files = [] := h.none (.inr hready)
      apply Filed.empty
      split
      · unfold ControlState.beginBind
        split
        · exact hnone
        · split <;> exact hnone
      · exact hnone
    · exact absurd hs nofun
  | stop =>
    simp only at hs
    split at hs
    · obtain rfl := Option.some.inj hs
      exact h.moved rfl rfl (by simp)
    · exact absurd hs nofun
  | call r => exact h.call hs
  | thread r =>
    obtain ⟨hfiles, hpath, hsite, hstarted⟩ := threadStep_files hs
    refine h.moved hfiles hpath ?_
    rw [hsite, hstarted]
    exact id
  | setPath path =>
    simp only at hs
    split at hs
    · next hsite =>
      obtain rfl := Option.some.inj hs
      exact .empty (h.none (.inr ⟨hsite, hkeeps⟩))
    · exact absurd hs nofun
  | foreignOpen | foreignClose =>
    simp only at hs
    split at hs
    · obtain rfl := Option.some.inj hs
      exact h.moved rfl rfl id
    · exact absurd hs nofun
  | otherBind =>
    obtain rfl := Option.some.inj hs
    exact h.moved rfl rfl id

end Files

/-- **In every run in which the path of a started element is not replaced**, the element's one socket file is that of its
path, and behind `stop` there is none. -/
theorem control_unlinked {events : List ControlEvent} {s : ControlState}
    (hkeeps : Runs.Along controlStep KeepsPath .init events) (h : Runs.run controlStep .init events = some s) :
    (∀ file ∈ s.files, s.path = some file) ∧ (s.site = .idle → s.started = false → s.files = []) := by
  have hfiled := Runs.run_invariant controlStep (fun _ _ _ hinv hk hs => Filed.step hinv hk hs) filed_init hkeeps h
  exact ⟨hfiled.own, fun hsite hstarted => hfiled.none (.inr ⟨hsite, hstarted⟩)⟩

theorem control_unlinked_served : ∃ s, Runs.run controlStep .init servedEvents = some s ∧ s.files = [] := by
  obtain ⟨s, hrun, hsite, hstarted⟩ : ∃ s, Runs.run controlStep .init servedEvents = some s ∧ s.site = .idle ∧
      s.started = false := ⟨_, rfl, rfl, rfl⟩
  have hkeeps : Runs.Along controlStep KeepsPath .init servedEvents := by
    simp [servedEvents, Runs.Along, KeepsPath]
  exact ⟨s, hrun, (control_unlinked hkeeps hrun).2 hsite hstarted⟩

end Control
end LibuvcH264Src
