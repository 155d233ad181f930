import Loopix.Provider.Inbox

/-!
# Handlers side by side

`listenForIncomingConnections` serves every connection in a goroutine of its own
(`go p.handleConnection(conn)`), so the `fetchMessages` and `storeMessage` calls of
different connections run at the same time on the same inboxes, with no lock.  Each
makes its calls of the file system one after the other, and another handler's calls may
come between any two of them.

Here a handler is a program counter, and one step is one call of the file system:
`DirExists` with `ReadDir`, a `ReadFile`, a `Remove`, a `Create`, a `Write`.  Every call
behaves as the file system dictates: a read fails exactly when the file is not there,
a removal of a file that is not there changes nothing (its error is only logged), and a
write to a file that was removed after it was created goes to no file of the inbox.  A
schedule says which handler makes the next call.

Run alone, a handler computes what the sequential model computes when nothing fails
(`fetch_alone`, `store_alone`), and handlers run one after the other are the sequential
model of `Loopix.Provider.Inbox` (`interleave_serial`).  Whatever the schedule, no
message is forged: everything handed out or left in an inbox was there at the start, is
being stored, or is empty; and stores of distinct files, with no pull among them, keep
every message they report stored.  But with pulls among them, handlers do not keep the
books, although no call fails unexpectedly: two pulls of one inbox can hand every message
out twice, or lose one; and a pull that comes between a store's `Create` and its `Write`
hands out an empty message, while the store reports success and its message is gone.

## Main definitions

* `FetchPc`, `StorePc`, `Handler` — a handler between two calls.
* `fetchStep`, `storeStep`, `Handler.step` — one call.
* `interleave` — handlers running along a schedule.
* `InboxCall.handler`, `serialSchedule` — the handler of a call of the sequential model,
  and the schedule running handlers one after the other.
* `FilesAllowed`, `Handler.Allowed`, `Origin` — where the contents of files and the
  messages of handlers come from.
* `Handler.target`, `Handler.Kept` — the file a store writes, and what it has made of it.

## Main results

* `fetch_alone`, `store_alone` — alone, a handler computes `fetchMessages` or
  `storeMessage` with no failure.
* `interleave_serial` — **one after the other, handlers run as `runInbox`.**
* `interleave_no_forged_message` — **no schedule forges a message.**
* `interleave_stores_keep` — **with no pull, a store that reports success keeps its
  message.**
* `interleave_fetch_fetch_duplicates` — **two pulls in lockstep each hand out every
  message.**
* `interleave_fetch_fetch_loses` — **two pulls can lose a message.**
* `interleave_store_fetch_loses` — **a pull between a store's two calls loses the stored
  message.**
-/

namespace Loopix

/-! ### Handlers, one call of the file system at a time -/

/-- Where a `fetchMessages` call is between two calls of the file system: about to look
for the inbox and list it; about to read the next listed file, with the messages read so
far; about to remove the file it has just read; or returned. -/
inductive FetchPc where
  | start
  | read (files : List String) (messagesBytes : List Bytes)
  | remove (name : String) (files : List String) (messagesBytes : List Bytes)
  | done (r : Except String (String × List Bytes))

/-- Where a `storeMessage` call is: about to create its file; about to write the message
into the file it created; or returned. -/
inductive StorePc where
  | start
  | write
  | done (r : Except String Unit)

/-- A handler's call of `fetchMessages` or of `storeMessage`, and where it is. -/
inductive Handler where
  | fetch (clientID : String) (pc : FetchPc)
  | store (message : Bytes) (inboxID messageID : String) (pc : StorePc)

/-- The messages a fetch holds: those it has read so far, or those it handed out. -/
def FetchPc.messages : FetchPc → List Bytes
  | .start => []
  | .read _ messagesBytes => messagesBytes
  | .remove _ _ messagesBytes => messagesBytes
  | .done r => fetched r

/-- The messages a handler holds. -/
def Handler.messages : Handler → List Bytes
  | .fetch _ pc => pc.messages
  | .store .. => []

/-- `os.Remove` of a file that is already gone changes nothing. -/
@[simp] theorem removeFile_removeFile (fs : FileSystem) (path name : String) :
    removeFile (removeFile fs path name) path name = removeFile fs path name := by
  funext q
  by_cases hq : q = path
  · subst hq
    cases h : fs q with
    | none => simp [removeFile, h]
    | some d =>
      simp only [removeFile, Function.update_same, h, Option.map_some']
      exact congrArg some
        (AList.ext (List.kerase_of_not_mem_keys (List.not_mem_keys_kerase name d.nodupKeys)))
  · simp [removeFile, Function.update_noteq hq]

section Steps

variable (commFlag : Bytes)

/-- One call of the file system by `fetchMessages` on the inbox at `path`.  `DirExists`
and `ReadDir` make one step: no handler removes a directory. -/
def fetchStep (path : String) (fs : FileSystem) : FetchPc → FileSystem × FetchPc
  | .start =>
    match fs path with
    | none => (fs, .done (.ok ("NI", [])))
    | some d =>
      if (readDir d).length = 0 then (fs, .done (.ok ("EI", [])))
      else (fs, .read ((readDir d).map Sigma.fst) [])
  | .read [] messagesBytes => (fs, .done (.ok ("SI", messagesBytes)))
  | .read (name :: files) messagesBytes =>
    match readFile fs path name with
    | .error e => (fs, .done (.error e))
    | .ok dat => (fs, .remove name files (messagesBytes ++ [wrapWithFlag commFlag dat]))
  | .remove name files messagesBytes => (removeFile fs path name, .read files messagesBytes)
  | .done r => (fs, .done r)

/-- Listing an inbox changes nothing, and a fetch that has listed its inbox holds no
message yet. -/
theorem fetchStep_start (path : String) (fs : FileSystem) :
    (fetchStep commFlag path fs .start).1 = fs ∧
      (fetchStep commFlag path fs .start).2.messages = [] := by
  simp only [fetchStep]
  split
  · exact ⟨rfl, rfl⟩
  · split <;> exact ⟨rfl, rfl⟩

/-- One call of the file system by `storeMessage`.  `os.Create` opens its file, made empty
(a file of that name is truncated, a new one is made); `file.Write` writes the message at
offset 0 of that file, over what it holds, and a file removed since goes to no file of the
inbox.  The model finds the file by its name, which is the file `Create` opened unless a
second store of the same name made it anew after a removal: the theorems on stores running
at once take the files of the stores to be distinct. -/
def storeStep (message : Bytes) (inboxID messageID : String) (fs : FileSystem) :
    StorePc → FileSystem × StorePc
  | .start =>
    let path := inboxPath inboxID
    let fileName := messageID ++ ".txt"
    match fs path with
    | none =>
      (fs, .done (.error ("open " ++ path ++ "/" ++ fileName ++ ": no such file or directory")))
    | some d => (Function.update fs path (some (d.insert fileName [])), .write)
  | .write =>
    let path := inboxPath inboxID
    let fileName := messageID ++ ".txt"
    match fs path with
    | some d =>
      match d.lookup fileName with
      | some dat =>
        (Function.update fs path (some (d.insert fileName (message ++ dat.drop message.length))),
          .done (.ok ()))
      | none => (fs, .done (.ok ()))
    | none => (fs, .done (.ok ()))
  | .done r => (fs, .done r)

/-- One call of the file system by a handler. -/
def Handler.step (fs : FileSystem) : Handler → FileSystem × Handler
  | .fetch clientID pc =>
    let r := fetchStep commFlag (inboxPath clientID) fs pc
    (r.1, .fetch clientID r.2)
  | .store message inboxID messageID pc =>
    let r := storeStep message inboxID messageID fs pc
    (r.1, .store message inboxID messageID r.2)

/-- A handler making `n` calls, with no other handler's call in between. -/
def Handler.run : ℕ → FileSystem → Handler → FileSystem × Handler
  | 0, fs, h => (fs, h)
  | n + 1, fs, h => Handler.run n (h.step commFlag fs).1 (h.step commFlag fs).2

/-- Handlers running along a schedule: each entry names the handler that makes the next
call; an entry naming no handler is skipped. -/
def interleave : FileSystem → List Handler → List ℕ → FileSystem × List Handler
  | fs, hs, [] => (fs, hs)
  | fs, hs, i :: schedule =>
    match hs[i]? with
    | some h => interleave (h.step commFlag fs).1 (hs.set i (h.step commFlag fs).2) schedule
    | none => interleave fs hs schedule

/-! ### Runs and schedules -/

theorem Handler.run_add (m n : ℕ) :
    ∀ (fs : FileSystem) (h : Handler),
      h.run commFlag (m + n) fs =
        (h.run commFlag m fs).2.run commFlag n (h.run commFlag m fs).1 := by
  induction m with
  | zero => intro fs h; rw [Nat.zero_add]; rfl
  | succ m ih =>
    intro fs h
    rw [Nat.succ_add]
    exact ih _ _

@[simp] theorem Handler.run_fetch_done (clientID : String)
    (r : Except String (String × List Bytes))
    (n : ℕ) (fs : FileSystem) :
    (Handler.fetch clientID (.done r)).run commFlag n fs = (fs, .fetch clientID (.done r)) := by
  induction n generalizing fs with
  | zero => rfl
  | succ n ih => exact ih fs

theorem interleave_append (fs : FileSystem) (hs : List Handler) (s₁ s₂ : List ℕ) :
    interleave commFlag fs hs (s₁ ++ s₂) =
      interleave commFlag (interleave commFlag fs hs s₁).1 (interleave commFlag fs hs s₁).2
        s₂ := by
  induction s₁ generalizing fs hs with
  | nil => rfl
  | cons i s₁ ih =>
    simp only [List.cons_append, interleave]
    split <;> exact ih _ _

theorem interleave_cons {fs : FileSystem} {hs : List Handler} {i : ℕ} {h : Handler}
    (hi : hs[i]? = some h) (schedule : List ℕ) :
    interleave commFlag fs hs (i :: schedule) =
      interleave commFlag (h.step commFlag fs).1 (hs.set i (h.step commFlag fs).2) schedule := by
  simp only [interleave, hi]

/-- **What one call keeps, every schedule keeps.** -/
theorem interleave_preserves (Inv : FileSystem → List Handler → Prop)
    (hstep : ∀ {fs hs i h}, hs[i]? = some h → Inv fs hs →
      Inv (h.step commFlag fs).1 (hs.set i (h.step commFlag fs).2)) :
    ∀ (schedule : List ℕ) {fs : FileSystem} {hs : List Handler}, Inv fs hs →
      Inv (interleave commFlag fs hs schedule).1 (interleave commFlag fs hs schedule).2
  | [], _, _, hinv => hinv
  | i :: schedule, fs, hs, hinv => by
    cases hi : hs[i]? with
    | none =>
      simp only [interleave, hi]
      exact interleave_preserves Inv hstep schedule hinv
    | some h =>
      rw [interleave_cons commFlag hi]
      exact interleave_preserves Inv hstep schedule (hstep hi hinv)

theorem set_eq_self_of_getElem? {α : Type*} {hs : List α} {i : ℕ} {h : α}
    (hi : hs[i]? = some h) :
    hs.set i h = hs := by
  refine List.ext_getElem? fun j => ?_
  by_cases hj : i = j
  · subst hj
    rw [List.getElem?_set_self (List.getElem?_eq_some_iff.mp hi).1, hi]
  · rw [List.getElem?_set_ne hj]

/-- A schedule naming one handler `n` times runs it alone for `n` calls. -/
theorem interleave_replicate (n : ℕ) :
    ∀ {fs : FileSystem} {hs : List Handler} {i : ℕ} {h : Handler}, hs[i]? = some h →
      interleave commFlag fs hs (List.replicate n i) =
        ((h.run commFlag n fs).1, hs.set i (h.run commFlag n fs).2) := by
  induction n with
  | zero =>
    intro fs hs i h hi
    rw [List.replicate, interleave, Handler.run, set_eq_self_of_getElem? hi]
  | succ n ih =>
    intro fs hs i h hi
    have hlt : i < hs.length := (List.getElem?_eq_some_iff.mp hi).1
    rw [List.replicate_succ, interleave_cons commFlag hi,
      ih (List.getElem?_set_self (by simpa using hlt)), List.set_set]
    rfl

/-! ### A handler alone -/

theorem Handler.run_one (fs : FileSystem) (h : Handler) :
    h.run commFlag 1 fs = h.step commFlag fs := rfl

/-- Two calls of a fetch in its loop: it reads the next file and, if that succeeds,
removes it. -/
theorem fetch_run_two (clientID name : String) (names : List String) (acc : List Bytes)
    (fs : FileSystem) :
    (Handler.fetch clientID (.read (name :: names) acc)).run commFlag 2 fs =
      match readFile fs (inboxPath clientID) name with
      | .error e => (fs, .fetch clientID (.done (.error e)))
      | .ok dat =>
        (removeFile fs (inboxPath clientID) name,
          .fetch clientID (.read names (acc ++ [wrapWithFlag commFlag dat]))) := by
  cases h : readFile fs (inboxPath clientID) name <;>
    simp [Handler.run, Handler.step, fetchStep, h]

/-- The loop of a fetch, alone: it reads and removes the listed files as `fetchLoop`
does when no call fails unexpectedly. -/
theorem fetch_run_read (clientID : String) :
    ∀ (files : List (Σ _ : String, Bytes)) (fs : FileSystem) (j : ℕ) (acc : List Bytes),
      (Handler.fetch clientID (.read (files.map Sigma.fst) acc)).run commFlag
          (2 * files.length + 1) fs =
        ((fetchLoop commFlag (inboxPath clientID) {} fs j files acc).1,
          .fetch clientID (.done ((fetchLoop commFlag (inboxPath clientID) {} fs j files acc).2.map
            fun messagesBytes => ("SI", messagesBytes))))
  | [], _, _, _ => rfl
  | f :: files, fs, j, acc => by
    rw [show 2 * (f :: files).length + 1 = 2 + (2 * files.length + 1) by simp; omega,
      Handler.run_add, List.map_cons, fetch_run_two]
    cases hr : readFile fs (inboxPath clientID) f.1 with
    | error e => simp [fetchLoop, hr, Except.map]
    | ok dat =>
      dsimp only
      rw [fetch_run_read clientID files _ (j + 1)]
      simp [fetchLoop, hr]

/-- **A pull alone is `fetchMessages` with no failure.**  Run alone from any file
system, a fetch returns, after enough calls, what `fetchMessages` returns when every call
of the file system behaves as the file system dictates, and leaves the file system as
`fetchMessages` does. -/
theorem fetch_alone (fs : FileSystem) (clientID : String) :
    ∃ n, (Handler.fetch clientID .start).run commFlag n fs =
      ((fetchMessages commFlag fs clientID {}).1,
        .fetch clientID (.done (fetchMessages commFlag fs clientID {}).2)) := by
  cases hd : fs (inboxPath clientID) with
  | none => exact ⟨1, by simp [Handler.run, Handler.step, fetchStep, fetchMessages, hd]⟩
  | some d =>
    by_cases hlen : (readDir d).length = 0
    · exact ⟨1, by simp [Handler.run, Handler.step, fetchStep, fetchMessages, hd, hlen]⟩
    · refine ⟨1 + (2 * (readDir d).length + 1), ?_⟩
      rw [Handler.run_add, Handler.run_one]
      simp only [Handler.step, fetchStep, hd, hlen, if_false]
      rw [fetch_run_read commFlag clientID (readDir d) fs 0 []]
      simp [fetchMessages, hd, hlen]

/-- **A store alone is `storeMessage` with no failure.** -/
theorem store_alone (fs : FileSystem) (message : Bytes) (inboxID messageID : String) :
    (Handler.store message inboxID messageID .start).run commFlag 2 fs =
      ((storeMessage fs message inboxID messageID {}).1,
        .store message inboxID messageID
          (.done (storeMessage fs message inboxID messageID {}).2)) := by
  cases hd : fs (inboxPath inboxID) with
  | none => simp [Handler.run, Handler.step, storeStep, storeMessage, hd]
  | some d =>
    simp [Handler.run, Handler.step, storeStep, storeMessage, hd, AList.lookup_insert,
      AList.insert_insert]

/-! ### One after the other -/

/-- The handler serving a call on the inbox of `inboxID`, before its first call of the file
system. -/
def InboxCall.handler (inboxID : String) : InboxCall → Handler
  | .store message messageID _ => .store message inboxID messageID .start
  | .fetch _ => .fetch inboxID .start

/-- A call in which every call of the file system behaves as the file system dictates. -/
def InboxCall.Unfailing : InboxCall → Prop
  | .store _ _ out => out = {}
  | .fetch out => out = {}

/-- The message a returned store stored, as `runInbox` counts it. -/
def Handler.stored : Handler → List Bytes
  | .store message _ _ (.done r) => if r.isOk then [message] else []
  | _ => []

/-- The messages a returned fetch handed out, as `runInbox` counts them. -/
def Handler.handedOut : Handler → List Bytes
  | .fetch _ (.done r) => fetched r
  | _ => []

/-- The schedule that lets the handlers from the `i`-th on make `n₀`, `n₁`, … calls, each
handler running to its end before the next one begins. -/
def serialSchedule : ℕ → List ℕ → List ℕ
  | _, [] => []
  | i, n :: ns => List.replicate n i ++ serialSchedule (i + 1) ns

/-- A call's handler, alone, runs as `runInbox` runs the call. -/
theorem InboxCall.handler_alone (inboxID : String) (fs : FileSystem) :
    ∀ {c : InboxCall}, c.Unfailing →
      ∃ n h', (c.handler inboxID).run commFlag n fs =
          ((runInbox commFlag inboxID fs [c]).1, h') ∧
        h'.stored = (runInbox commFlag inboxID fs [c]).2.1 ∧
        h'.handedOut = (runInbox commFlag inboxID fs [c]).2.2
  | .store message messageID _, rfl =>
    ⟨2, _, store_alone commFlag fs message inboxID messageID,
      by simp [runInbox, Handler.stored], by simp [runInbox, Handler.handedOut]⟩
  | .fetch _, rfl => by
    obtain ⟨n, hn⟩ := fetch_alone commFlag fs inboxID
    exact ⟨n, _, hn, by simp [runInbox, Handler.stored], by simp [runInbox, Handler.handedOut]⟩

/-- Handlers behind some that have returned, run one after the other, run as `runInbox`
runs their calls. -/
theorem interleave_serialSchedule (inboxID : String) :
    ∀ (done : List Handler) (fs : FileSystem) (calls : List InboxCall),
      (∀ c ∈ calls, c.Unfailing) →
      ∃ ns hs, interleave commFlag fs (done ++ calls.map (InboxCall.handler inboxID))
            (serialSchedule done.length ns) =
          ((runInbox commFlag inboxID fs calls).1, done ++ hs) ∧
        hs.flatMap Handler.stored = (runInbox commFlag inboxID fs calls).2.1 ∧
        hs.flatMap Handler.handedOut = (runInbox commFlag inboxID fs calls).2.2
  | done, fs, [], _ => ⟨[], [], by simp [serialSchedule, interleave, runInbox]⟩
  | done, fs, c :: calls, hcalls => by
    obtain ⟨n, h', hrun, hst, hho⟩ :=
      InboxCall.handler_alone commFlag inboxID fs (hcalls c (List.mem_cons_self _ _))
    obtain ⟨ns, hs, hint, hst', hho'⟩ := interleave_serialSchedule inboxID (done ++ [h'])
      (runInbox commFlag inboxID fs [c]).1 calls fun c' hc' =>
        hcalls c' (List.mem_cons_of_mem _ hc')
    have hget : (done ++ c.handler inboxID :: calls.map (InboxCall.handler inboxID))[done.length]? =
        some (c.handler inboxID) := by
      rw [List.getElem?_append_right (le_refl _), Nat.sub_self, List.getElem?_cons_zero]
    have hset : (done ++ c.handler inboxID :: calls.map (InboxCall.handler inboxID)).set
        done.length h' = done ++ [h'] ++ calls.map (InboxCall.handler inboxID) := by
      simp [List.set_append_right]
    have hlen : done.length + 1 = (done ++ [h']).length := by simp
    have hrest := runInbox_append commFlag inboxID fs [c] calls
    rw [List.singleton_append] at hrest
    refine ⟨n :: ns, h' :: hs, ?_, ?_, ?_⟩
    · rw [List.map_cons, serialSchedule, interleave_append, interleave_replicate commFlag n hget,
        hrun]
      dsimp only
      rw [hset, hlen, hint, hrest, List.append_assoc, List.singleton_append]
    · rw [List.flatMap_cons, hst, hst', hrest]
    · rw [List.flatMap_cons, hho, hho', hrest]

/-- **Run one after the other, handlers are the sequential model.**  The handlers of calls on
one inbox in which no call of the file system fails unexpectedly, each running to its end
before the next one begins, leave the file system as `runInbox` leaves it, and store and
hand out the messages it does. -/
theorem interleave_serial (inboxID : String) (fs : FileSystem) (calls : List InboxCall)
    (hcalls : ∀ c ∈ calls, c.Unfailing) :
    ∃ ns hs, interleave commFlag fs (calls.map (InboxCall.handler inboxID))
          (serialSchedule 0 ns) =
        ((runInbox commFlag inboxID fs calls).1, hs) ∧
      hs.flatMap Handler.stored = (runInbox commFlag inboxID fs calls).2.1 ∧
      hs.flatMap Handler.handedOut = (runInbox commFlag inboxID fs calls).2.2 :=
  interleave_serialSchedule commFlag inboxID [] fs calls hcalls

/-- The inboxes when only `alice` has one, holding two messages. -/
def aliceInboxes : FileSystem :=
  fun p => if p = inboxPath "alice" then some twoMessageInbox else none

theorem interleave_serial_storeFetch :
    ∃ ns hs, interleave [] aliceInboxes
          ([.store [3] "TMP_MESSAGE_c" {}, .fetch {}].map (InboxCall.handler "alice"))
          (serialSchedule 0 ns) =
        ((runInbox [] "alice" aliceInboxes [.store [3] "TMP_MESSAGE_c" {}, .fetch {}]).1, hs) ∧
      hs.flatMap Handler.stored =
        (runInbox [] "alice" aliceInboxes [.store [3] "TMP_MESSAGE_c" {}, .fetch {}]).2.1 ∧
      hs.flatMap Handler.handedOut =
        (runInbox [] "alice" aliceInboxes [.store [3] "TMP_MESSAGE_c" {}, .fetch {}]).2.2 :=
  interleave_serial [] "alice" aliceInboxes [.store [3] "TMP_MESSAGE_c" {}, .fetch {}]
    (by simp [InboxCall.Unfailing])

/-! ### The files handlers name -/

/-- The inbox and the name of the file a store writes; none for a fetch. -/
def Handler.target : Handler → Option (String × String)
  | .store _ inboxID messageID _ => some (inboxPath inboxID, messageID ++ ".txt")
  | .fetch .. => none

/-- A handler names plain entries: its inbox and, for a store, its file. -/
def Handler.Plain : Handler → Prop
  | .fetch clientID _ => PlainName clientID
  | .store _ inboxID messageID _ => PlainName inboxID ∧ PlainName (messageID ++ ".txt")

instance : DecidablePred Handler.Plain
  | .fetch clientID _ => inferInstanceAs (Decidable (PlainName clientID))
  | .store _ inboxID messageID _ =>
    inferInstanceAs (Decidable (PlainName inboxID ∧ PlainName (messageID ++ ".txt")))

/-- A handler that has made no call of the file system yet. -/
def Handler.Fresh : Handler → Prop
  | .fetch _ .start | .store _ _ _ .start => True
  | _ => False

@[simp] theorem Handler.target_step (fs : FileSystem) :
    ∀ h : Handler, (h.step commFlag fs).2.target = h.target
  | .fetch .. | .store .. => rfl

/-- A call changes no handler's file. -/
theorem map_target_set_step {hs : List Handler} {i : ℕ} {h : Handler} (hi : hs[i]? = some h)
    (fs : FileSystem) :
    (hs.set i (h.step commFlag fs).2).map Handler.target = hs.map Handler.target := by
  rw [List.map_set, Handler.target_step]
  exact set_eq_self_of_getElem? (by rw [List.getElem?_map, hi]; rfl)

/-- Among handlers whose stores write distinct files, a handler other than a store writes
another file than the store's. -/
theorem target_ne_of_nodup : ∀ {hs : List Handler} {i k : ℕ} {h h' : Handler}
    {t : String × String}, (hs.filterMap Handler.target).Nodup → hs[i]? = some h →
      hs[k]? = some h' → k ≠ i → h.target = some t → h'.target ≠ some t
  | [], _, _, _, _, _, _, hi, _, _, _ => by cases hi
  | _ :: _, 0, 0, _, _, _, _, _, _, hik, _ => absurd rfl hik
  | _ :: _, 0, _ + 1, _, h', _, hnd, hi, hk, _, ht => by
    rw [List.getElem?_cons_zero, Option.some_inj] at hi
    subst hi
    rw [List.filterMap_cons, ht, List.nodup_cons] at hnd
    exact fun ht' => hnd.1 (List.mem_filterMap.mpr
      ⟨h', List.mem_iff_getElem?.mpr ⟨_, by rwa [List.getElem?_cons_succ] at hk⟩, ht'⟩)
  | _ :: _, _ + 1, 0, h, _, _, hnd, hi, hk, _, ht => by
    rw [List.getElem?_cons_zero, Option.some_inj] at hk
    subst hk
    intro ht'
    rw [List.filterMap_cons, ht', List.nodup_cons] at hnd
    exact hnd.1 (List.mem_filterMap.mpr
      ⟨h, List.mem_iff_getElem?.mpr ⟨_, by rwa [List.getElem?_cons_succ] at hi⟩, ht⟩)
  | x :: _, _ + 1, _ + 1, _, _, _, hnd, hi, hk, hik, ht =>
    target_ne_of_nodup (hnd.sublist ((List.sublist_cons_self x _).filterMap _))
      (by rwa [List.getElem?_cons_succ] at hi) (by rwa [List.getElem?_cons_succ] at hk)
      (fun h => hik (by rw [h])) ht

theorem readFile_update_insert (fs : FileSystem) (path name : String) (d : Dir) (dat : Bytes) :
    readFile (Function.update fs path (some (d.insert name dat))) path name = .ok dat := by
  simp [readFile]

theorem readFile_update_insert_ne {fs : FileSystem} {path name q n : String} {d : Dir}
    (hd : fs path = some d) (hne : (q, n) ≠ (path, name)) (dat : Bytes) :
    readFile (Function.update fs path (some (d.insert name dat))) q n = readFile fs q n := by
  by_cases hq : q = path
  · subst hq
    have hn : n ≠ name := fun hn => hne (by rw [hn])
    simp [readFile, hd, AList.lookup_insert_ne hn]
  · simp [readFile, Function.update_noteq hq]

/-- A store's call changes no other file. -/
theorem readFile_storeStep {fs : FileSystem} {message : Bytes} {inboxID messageID q n : String}
    (hne : (q, n) ≠ (inboxPath inboxID, messageID ++ ".txt")) :
    ∀ pc : StorePc, readFile (storeStep message inboxID messageID fs pc).1 q n = readFile fs q n
  | .start => by
    simp only [storeStep]
    split
    · rfl
    · exact readFile_update_insert_ne ‹_› hne _
  | .write => by
    simp only [storeStep]
    split
    · split
      · exact readFile_update_insert_ne ‹_› hne _
      · rfl
    · rfl
  | .done _ => rfl

/-- A removal only takes files away. -/
theorem readFile_of_readFile_removeFile {fs : FileSystem} {path name q n : String}
    {dat : Bytes} (h : readFile (removeFile fs path name) q n = .ok dat) :
    readFile fs q n = .ok dat := by
  by_cases hq : q = path
  · subst hq
    cases hd : fs q with
    | none => simp [readFile, removeFile, hd] at h
    | some d =>
      simp only [readFile, removeFile, hd, Function.update_same, Option.map_some',
        Option.some_bind] at h ⊢
      by_cases hn : n = name
      · subst hn
        simp at h
      · rwa [AList.lookup_erase_ne hn] at h
  · rwa [readFile, removeFile, Function.update_noteq hq] at h

/-- A fetch's call only takes files away. -/
theorem readFile_of_readFile_fetchStep {path q n : String} {fs : FileSystem} {dat : Bytes} :
    ∀ {pc : FetchPc}, readFile (fetchStep commFlag path fs pc).1 q n = .ok dat →
      readFile fs q n = .ok dat
  | .start, h => by rwa [(fetchStep_start commFlag path fs).1] at h
  | .read [] _, h => h
  | .read (name :: files) _, h => by
    simp only [fetchStep] at h
    split at h <;> exact h
  | .remove .., h => readFile_of_readFile_removeFile h
  | .done _, h => h

/-! ### What every schedule keeps -/

section Allowed

variable (P : Bytes → Prop)

/-- Every file of every inbox holds contents that `P` allows. -/
def FilesAllowed (fs : FileSystem) : Prop :=
  ∀ path d, fs path = some d → ∀ f ∈ d.entries, P f.2

/-- A handler that `P` allows: a store stores contents that `P` allows, and a fetch holds
only such contents, wrapped. -/
def Handler.Allowed : Handler → Prop
  | .store message _ _ _ => P message
  | .fetch _ pc => ∀ m ∈ pc.messages, ∃ b, P b ∧ m = wrapWithFlag commFlag b

/-- A store between its `Create` and its `Write` finds its file empty, if the file is still
there: `Create` emptied it, and no other store writes it. -/
def Handler.Pending (fs : FileSystem) : Handler → Prop
  | .store _ inboxID messageID .write =>
    ∀ dat, readFile fs (inboxPath inboxID) (messageID ++ ".txt") = .ok dat → dat = []
  | _ => True

variable {P}

theorem Handler.Allowed.messages {h : Handler} (hh : h.Allowed commFlag P) :
    ∀ m ∈ h.messages, ∃ b, P b ∧ m = wrapWithFlag commFlag b := by
  cases h with
  | fetch clientID pc => exact hh
  | store message inboxID messageID pc => nofun

theorem filesAllowed_removeFile {fs : FileSystem} (h : FilesAllowed P fs) (path name : String) :
    FilesAllowed P (removeFile fs path name) := by
  intro q d hq f hf
  by_cases hqp : q = path
  · subst hqp
    rw [removeFile, Function.update_same] at hq
    obtain ⟨d₀, hd₀, rfl⟩ := Option.map_eq_some'.mp hq
    exact h q d₀ hd₀ f ((List.kerase_sublist _ _).subset hf)
  · rw [removeFile, Function.update_noteq hqp] at hq
    exact h q d hq f hf

theorem filesAllowed_insert {fs : FileSystem} (h : FilesAllowed P fs) {path : String} {d : Dir}
    (hd : fs path = some d) (name : String) {dat : Bytes} (hdat : P dat) :
    FilesAllowed P (Function.update fs path (some (d.insert name dat))) := by
  intro q d' hq f hf
  by_cases hqp : q = path
  · subst hqp
    rw [Function.update_same, Option.some_inj] at hq
    subst hq
    rw [AList.insert_entries, List.mem_cons] at hf
    rcases hf with rfl | hf
    · exact hdat
    · exact h q d hd f ((List.kerase_sublist _ _).subset hf)
  · rw [Function.update_noteq hqp] at hq
    exact h q d' hq f hf

theorem allowed_of_readFile {fs : FileSystem} (h : FilesAllowed P fs) {path name : String}
    {dat : Bytes} (hr : readFile fs path name = .ok dat) : P dat := by
  unfold readFile at hr
  split at hr
  · rename_i dat' hb
    cases hr
    obtain ⟨d, hd, hl⟩ := Option.bind_eq_some.mp hb
    exact h path d hd _ (AList.mem_lookup_iff.mp hl)
  · cases hr

/-- A fetch's call keeps the files allowed, and holds only allowed messages: those it held,
and what it read from an allowed file. -/
theorem fetchStep_allowed {fs : FileSystem} (hfs : FilesAllowed P fs) (path : String) :
    ∀ {pc : FetchPc}, (∀ m ∈ pc.messages, ∃ b, P b ∧ m = wrapWithFlag commFlag b) →
      FilesAllowed P (fetchStep commFlag path fs pc).1 ∧
        ∀ m ∈ (fetchStep commFlag path fs pc).2.messages,
          ∃ b, P b ∧ m = wrapWithFlag commFlag b
  | .start, _ => by
    obtain ⟨hfs', hmsgs⟩ := fetchStep_start commFlag path fs
    rw [hfs', hmsgs]
    exact ⟨hfs, nofun⟩
  | .read [] _, hh => ⟨hfs, hh⟩
  | .read (name :: files) _, hh => by
    simp only [fetchStep]
    cases hr : readFile fs path name with
    | error e => exact ⟨hfs, nofun⟩
    | ok dat =>
      refine ⟨hfs, fun m hm => ?_⟩
      rcases List.mem_append.mp hm with hm | hm
      · exact hh m hm
      · exact ⟨dat, allowed_of_readFile hfs hr, List.mem_singleton.mp hm⟩
  | .remove name _ _, hh => ⟨filesAllowed_removeFile hfs path name, hh⟩
  | .done _, hh => ⟨hfs, hh⟩

/-- A store's call keeps the files allowed when its message is: it creates an empty file,
or writes its message over the empty file it created. -/
theorem storeStep_allowed (h0 : P []) {fs : FileSystem} (hfs : FilesAllowed P fs)
    {message : Bytes} (hmsg : P message) {inboxID messageID : String} :
    ∀ {pc : StorePc}, (Handler.store message inboxID messageID pc).Pending fs →
      FilesAllowed P (storeStep message inboxID messageID fs pc).1
  | .start, _ => by
    simp only [storeStep]
    split
    · exact hfs
    · exact filesAllowed_insert hfs ‹_› _ h0
  | .write, hp => by
    simp only [storeStep]
    split
    · rename_i d hd
      split
      · rename_i dat hdat
        have hempty : dat = [] := hp dat (by simp [readFile, hd, hdat])
        rw [hempty, List.drop_nil, List.append_nil]
        exact filesAllowed_insert hfs hd _ hmsg
      · exact hfs
    · exact hfs
  | .done _, _ => hfs

/-- A store's own call leaves it pending on the empty file it created. -/
theorem storeStep_pending (fs : FileSystem) (message : Bytes) (inboxID messageID : String) :
    ∀ pc : StorePc, (Handler.store message inboxID messageID
      (storeStep message inboxID messageID fs pc).2).Pending
        (storeStep message inboxID messageID fs pc).1
  | .start => by
    simp only [storeStep]
    split
    · trivial
    · intro dat hdat
      rw [readFile_update_insert] at hdat
      exact (Except.ok.inj hdat).symm
  | .write => by
    simp only [storeStep]
    split
    · split <;> trivial
    · trivial
  | .done _ => trivial

/-- A store stays pending as long as its file holds nothing it did not hold. -/
theorem Handler.pending_of_readFile {fs fs' : FileSystem} {h : Handler}
    (hfile : ∀ q n, h.target = some (q, n) → ∀ dat, readFile fs' q n = .ok dat →
      readFile fs q n = .ok dat)
    (hp : h.Pending fs) : h.Pending fs' := by
  rcases h with _ | ⟨message, inboxID, messageID, _ | _ | _⟩
  all_goals first | trivial | exact fun dat hd => hp dat (hfile _ _ rfl dat hd)

/-- One call among handlers whose stores write distinct files keeps every store pending on
its empty file: a fetch only removes files, and another store writes another file. -/
theorem step_pending {fs : FileSystem} {hs : List Handler} {i : ℕ} {h : Handler}
    (hi : hs[i]? = some h) (hnd : (hs.filterMap Handler.target).Nodup)
    (hp : ∀ h ∈ hs, h.Pending fs) :
    ∀ h' ∈ hs.set i (h.step commFlag fs).2, h'.Pending (h.step commFlag fs).1 := by
  intro h' hm
  obtain ⟨k, hk'⟩ := List.mem_iff_getElem?.mp hm
  rw [List.getElem?_set] at hk'
  split_ifs at hk' with hik
  · -- The handler that made the call.
    cases hk'
    cases h with
    | fetch clientID pc => trivial
    | store message inboxID messageID pc => exact storeStep_pending fs message inboxID messageID pc
  · -- Another handler.
    refine Handler.pending_of_readFile (fun q n hq dat hd => ?_)
      (hp h' (List.mem_iff_getElem?.mpr ⟨k, hk'⟩))
    cases h with
    | fetch clientID pc => exact readFile_of_readFile_fetchStep commFlag hd
    | store message inboxID messageID pc =>
      have hne := target_ne_of_nodup hnd hi hk' (fun h => hik h.symm) rfl
      simp only [Handler.step] at hd
      rwa [readFile_storeStep (fun heq => hne (by rw [hq, heq])) pc] at hd

theorem Handler.step_allowed (h0 : P []) {fs : FileSystem} (hfs : FilesAllowed P fs) :
    ∀ {h : Handler}, h.Allowed commFlag P → h.Pending fs →
      FilesAllowed P (h.step commFlag fs).1 ∧ (h.step commFlag fs).2.Allowed commFlag P
  | .fetch _ _, hh, _ => fetchStep_allowed commFlag hfs _ hh
  | .store .., hh, hp => ⟨storeStep_allowed h0 hfs hh hp, hh⟩

/-- **Every schedule of handlers whose stores write distinct files keeps the files and the
handlers allowed**, for any `P` that allows the empty message. -/
theorem interleave_allowed (h0 : P []) (schedule : List ℕ) {fs : FileSystem}
    {hs : List Handler} (hnd : (hs.filterMap Handler.target).Nodup) (hfs : FilesAllowed P fs)
    (hhs : ∀ h ∈ hs, h.Allowed commFlag P) (hp : ∀ h ∈ hs, h.Pending fs) :
    FilesAllowed P (interleave commFlag fs hs schedule).1 ∧
      ∀ h ∈ (interleave commFlag fs hs schedule).2, h.Allowed commFlag P := by
  obtain ⟨-, hfs', hhs', -⟩ := interleave_preserves commFlag
    (fun fs hs => (hs.filterMap Handler.target).Nodup ∧ FilesAllowed P fs ∧
      (∀ h ∈ hs, h.Allowed commFlag P) ∧ ∀ h ∈ hs, h.Pending fs)
    (fun {fs hs i h} hi ⟨hnd, hfs, hhs, hp⟩ => by
      have hmem : h ∈ hs := List.mem_iff_getElem?.mpr ⟨_, hi⟩
      obtain ⟨hfs', hh'⟩ := Handler.step_allowed commFlag h0 hfs (hhs h hmem) (hp h hmem)
      have htarget := congrArg (List.filterMap id) (map_target_set_step commFlag hi fs)
      simp only [List.filterMap_map, Function.id_comp] at htarget
      exact ⟨htarget ▸ hnd, hfs',
        fun h'' hm => (List.mem_or_eq_of_mem_set hm).elim (hhs h'') (· ▸ hh'),
        step_pending commFlag hi hnd hp⟩)
    schedule ⟨hnd, hfs, hhs, hp⟩
  exact ⟨hfs', hhs'⟩

end Allowed

/-- Where a message may come from: it is empty, a store is storing it, or an inbox held it
at the start. -/
def Origin (fs : FileSystem) (hs : List Handler) (b : Bytes) : Prop :=
  b = [] ∨ (∃ inboxID messageID pc, Handler.store b inboxID messageID pc ∈ hs) ∨
    ∃ path, b ∈ inboxMessages (fs path)

/-- **No schedule forges a message.**  Let handlers of plain names start afresh, the stores
writing distinct files.  Whatever the schedule, every file's contents, and every message a
pull holds or has handed out, unwrapped, are empty, a message some store is storing, or a
message of an inbox at the start.  Two stores of one file can forge one: the second
`Create` empties the file the first opened, and their writes land one over the other. -/
theorem interleave_no_forged_message (fs : FileSystem) (hs : List Handler) (schedule : List ℕ)
    (hfresh : ∀ h ∈ hs, h.Fresh) (hplain : ∀ h ∈ hs, h.Plain)
    (hdistinct : (hs.filterMap Handler.target).Nodup) :
    FilesAllowed (Origin fs hs) (interleave commFlag fs hs schedule).1 ∧
      ∀ h ∈ (interleave commFlag fs hs schedule).2, ∀ m ∈ h.messages,
        ∃ b, Origin fs hs b ∧ m = wrapWithFlag commFlag b := by
  have hfs : FilesAllowed (Origin fs hs) fs := fun path d hd f hf =>
    .inr (.inr ⟨path, by rw [hd]; exact Multiset.mem_coe.mpr (List.mem_map_of_mem _ hf)⟩)
  have hhs : ∀ h ∈ hs, h.Allowed commFlag (Origin fs hs) := by
    intro h hh
    have hf := hfresh h hh
    rcases h with ⟨clientID, _ | _ | _ | _⟩ | ⟨message, inboxID, messageID, pc⟩
    all_goals first | exact (hf : False).elim | skip
    · exact nofun
    · exact .inr (.inl ⟨inboxID, messageID, pc, hh⟩)
  have hp : ∀ h ∈ hs, h.Pending fs := by
    intro h hh
    have hf := hfresh h hh
    rcases h with _ | ⟨_, _, _, _ | _ | _⟩ <;> trivial
  obtain ⟨hfs', hhs'⟩ := interleave_allowed commFlag (.inl rfl) schedule hdistinct hfs hhs hp
  exact ⟨hfs', fun h hh => (hhs' h hh).messages commFlag⟩

theorem interleave_no_forged_message_storeFetch :
    (∀ h ∈ [Handler.store [3] "alice" "TMP_MESSAGE_c" .start, .fetch "alice" .start], h.Plain) ∧
    FilesAllowed (Origin aliceInboxes
        [.store [3] "alice" "TMP_MESSAGE_c" .start, .fetch "alice" .start])
      (interleave [] aliceInboxes
        [.store [3] "alice" "TMP_MESSAGE_c" .start, .fetch "alice" .start] [0, 1, 1, 1, 0]).1 ∧
      ∀ h ∈ (interleave [] aliceInboxes
          [.store [3] "alice" "TMP_MESSAGE_c" .start, .fetch "alice" .start] [0, 1, 1, 1, 0]).2,
        ∀ m ∈ h.messages,
          ∃ b, Origin aliceInboxes
            [.store [3] "alice" "TMP_MESSAGE_c" .start, .fetch "alice" .start] b ∧
            m = wrapWithFlag [] b :=
  have hplain : ∀ h ∈ [Handler.store [3] "alice" "TMP_MESSAGE_c" .start, .fetch "alice" .start],
      h.Plain := by decide
  ⟨hplain, interleave_no_forged_message [] _ _ [0, 1, 1, 1, 0]
    (by simp [Handler.Fresh]) hplain (by decide)⟩

/-! ### Stores with no pull -/

/-- What a store has made of its file so far: an empty file once created, its message once
it has returned success. -/
def Handler.Kept (fs : FileSystem) : Handler → Prop
  | .store _ inboxID messageID .write =>
    readFile fs (inboxPath inboxID) (messageID ++ ".txt") = .ok []
  | .store message inboxID messageID (.done (.ok ())) =>
    readFile fs (inboxPath inboxID) (messageID ++ ".txt") = .ok message
  | _ => True

/-- A store's own call keeps what it has made of its file. -/
theorem storeStep_kept {fs : FileSystem} {message : Bytes} {inboxID messageID : String} :
    ∀ {pc : StorePc}, (Handler.store message inboxID messageID pc).Kept fs →
      (Handler.store message inboxID messageID
        (storeStep message inboxID messageID fs pc).2).Kept
        (storeStep message inboxID messageID fs pc).1
  | .start, _ => by
    simp only [storeStep]
    split
    · trivial
    · exact readFile_update_insert _ _ _ _ _
  | .write, hk => by
    simp only [Handler.Kept, readFile] at hk
    simp only [storeStep]
    split
    · rename_i d hd
      rw [hd, Option.some_bind] at hk
      split at hk
      · rename_i dat hdat
        cases hk
        simp only [hdat, List.drop_nil, List.append_nil]
        exact readFile_update_insert _ _ _ _ _
      · cases hk
    · rename_i hd
      rw [hd, Option.none_bind] at hk
      cases hk
  | .done _, hk => hk

/-- What a store has made of its file stays as long as nobody touches the file. -/
theorem Handler.kept_of_readFile {fs fs' : FileSystem} {h : Handler}
    (hfile : ∀ q n, h.target = some (q, n) → readFile fs' q n = readFile fs q n)
    (hk : h.Kept fs) : h.Kept fs' := by
  rcases h with _ | ⟨message, inboxID, messageID, _ | _ | _ | _⟩
  all_goals first | trivial | (rw [Handler.Kept, hfile _ _ rfl]; exact hk)

/-- One call among stores of distinct files keeps what each has made of its file: the store
that makes it keeps its own, and changes no file of the others. -/
theorem step_kept {fs : FileSystem} {hs : List Handler} {i : ℕ} {h : Handler}
    (hi : hs[i]? = some h) (hst : none ∉ hs.map Handler.target)
    (hnd : (hs.map Handler.target).Nodup) (hk : ∀ h ∈ hs, h.Kept fs) :
    ∀ h' ∈ hs.set i (h.step commFlag fs).2, h'.Kept (h.step commFlag fs).1 := by
  have hmem : h ∈ hs := List.mem_iff_getElem?.mpr ⟨i, hi⟩
  rcases h with _ | ⟨message, inboxID, messageID, pc⟩
  · exact absurd (List.mem_map_of_mem Handler.target hmem) hst
  intro h' hm
  obtain ⟨k, hk'⟩ := List.mem_iff_getElem?.mp hm
  rw [List.getElem?_set] at hk'
  split_ifs at hk' with hik
  · -- The store that made the call.
    cases hk'
    exact storeStep_kept (hk _ hmem)
  · -- Another store, of another file.
    have hlt : i < (hs.map Handler.target).length := by
      simpa using (List.getElem?_eq_some_iff.mp hi).1
    have hne : h'.target ≠ some (inboxPath inboxID, messageID ++ ".txt") := fun heq =>
      hik (List.getElem?_inj hlt hnd (by
        rw [List.getElem?_map, List.getElem?_map, hi, hk', Option.map_some', Option.map_some', heq]
        rfl))
    exact Handler.kept_of_readFile
      (fun q n hq => readFile_storeStep (fun heq => hne (by rw [hq, heq])) pc)
      (hk h' (List.mem_iff_getElem?.mpr ⟨k, hk'⟩))

/-- **Every schedule of stores of distinct files keeps what each has made of its file.** -/
theorem interleave_kept (schedule : List ℕ) {fs : FileSystem} {hs : List Handler}
    (hst : none ∉ hs.map Handler.target) (hnd : (hs.map Handler.target).Nodup)
    (hk : ∀ h ∈ hs, h.Kept fs) :
    ∀ h ∈ (interleave commFlag fs hs schedule).2,
      h.Kept (interleave commFlag fs hs schedule).1 := by
  refine (interleave_preserves commFlag (fun fs hs => none ∉ hs.map Handler.target ∧
      (hs.map Handler.target).Nodup ∧ ∀ h ∈ hs, h.Kept fs)
    (fun {fs hs i h} hi ⟨hst, hnd, hk⟩ => ?_) schedule ⟨hst, hnd, hk⟩).2.2
  have htarget := map_target_set_step commFlag hi fs
  exact ⟨htarget ▸ hst, htarget ▸ hnd, step_kept commFlag hi hst hnd hk⟩

/-- **With no pull, a store that reports success keeps its message.**  Stores of distinct
files with plain names, started together and interleaved in any way: each one that has
returned success has its message in its file.  The loss of `interleave_store_fetch_loses`
needs a pull. -/
theorem interleave_stores_keep (fs : FileSystem) (hs : List Handler) (schedule : List ℕ)
    (hstart : ∀ h ∈ hs,
      ∃ message inboxID messageID, h = .store message inboxID messageID .start)
    (hplain : ∀ h ∈ hs, h.Plain)
    (hdistinct : (hs.map Handler.target).Nodup) {message : Bytes} {inboxID messageID : String}
    (hdone : .store message inboxID messageID (.done (.ok ())) ∈
      (interleave commFlag fs hs schedule).2) :
    readFile (interleave commFlag fs hs schedule).1 (inboxPath inboxID) (messageID ++ ".txt") =
      .ok message := by
  have hst : none ∉ hs.map Handler.target := fun hnone => by
    obtain ⟨h, hh, heq⟩ := List.mem_map.mp hnone
    obtain ⟨_, _, _, rfl⟩ := hstart h hh
    cases heq
  have hk : ∀ h ∈ hs, h.Kept fs := fun h hh => by
    obtain ⟨_, _, _, rfl⟩ := hstart h hh
    trivial
  exact interleave_kept commFlag schedule hst hdistinct hk _ hdone

theorem interleave_stores_keep_two :
    (∀ h ∈ [Handler.store [3] "alice" "TMP_MESSAGE_c" .start,
        .store [4] "alice" "TMP_MESSAGE_d" .start], h.Plain) ∧
    readFile (interleave [] aliceInboxes
        [.store [3] "alice" "TMP_MESSAGE_c" .start, .store [4] "alice" "TMP_MESSAGE_d" .start]
        [0, 1, 1, 0]).1 (inboxPath "alice") ("TMP_MESSAGE_c" ++ ".txt") = .ok [3] :=
  have hplain : ∀ h ∈ [Handler.store [3] "alice" "TMP_MESSAGE_c" .start,
      .store [4] "alice" "TMP_MESSAGE_d" .start], h.Plain := by decide
  ⟨hplain, interleave_stores_keep [] aliceInboxes _ [0, 1, 1, 0] (by simp) hplain (by decide)
    (by simp [interleave, Handler.step, storeStep, aliceInboxes])⟩

/-! ### Two pulls of one inbox -/

/-- A fetch's call made twice in a row, the second time on what the first left, does what
it did once: reading changes nothing, and a removed file stays removed. -/
theorem fetchStep_fetchStep (path : String) (fs : FileSystem) (pc : FetchPc) :
    fetchStep commFlag path (fetchStep commFlag path fs pc).1 pc =
      fetchStep commFlag path fs pc := by
  cases pc with
  | start => rw [(fetchStep_start commFlag path fs).1]
  | read files acc =>
    cases files with
    | nil => rfl
    | cons name files =>
      have h : (fetchStep commFlag path fs (.read (name :: files) acc)).1 = fs := by
        simp only [fetchStep]
        split <;> rfl
      rw [h]
  | remove name files acc => simp only [fetchStep, removeFile_removeFile]
  | done r => rfl

/-- Two fetches of one inbox in lockstep, each call of the first followed by the same
call of the second, both run as the first would alone. -/
theorem interleave_lockstep (clientID : String) :
    ∀ (n : ℕ) (fs : FileSystem) (pc : FetchPc),
      interleave commFlag fs [.fetch clientID pc, .fetch clientID pc]
          (List.replicate n [0, 1]).flatten =
        (((Handler.fetch clientID pc).run commFlag n fs).1,
          [((Handler.fetch clientID pc).run commFlag n fs).2,
            ((Handler.fetch clientID pc).run commFlag n fs).2])
  | 0, _, _ => rfl
  | n + 1, fs, pc => by
    have h01 : interleave commFlag fs [.fetch clientID pc, .fetch clientID pc] [0, 1] =
        ((fetchStep commFlag (inboxPath clientID) fs pc).1,
          [.fetch clientID (fetchStep commFlag (inboxPath clientID) fs pc).2,
            .fetch clientID (fetchStep commFlag (inboxPath clientID) fs pc).2]) := by
      simp [interleave, Handler.step, fetchStep_fetchStep]
    rw [List.replicate_succ, List.flatten_cons, interleave_append, h01,
      interleave_lockstep clientID n]
    rfl

/-- **Two pulls in lockstep each hand out every message.**  For every file system and
every client there is a schedule of two pulls of the client's inbox, each call of the
first followed by the same call of the second, after which both return what one pull
alone returns, and the file system is as one pull alone leaves it: every message of the
inbox is handed out twice. -/
theorem interleave_fetch_fetch_duplicates (fs : FileSystem) (clientID : String) :
    ∃ n, interleave commFlag fs [.fetch clientID .start, .fetch clientID .start]
        (List.replicate n [0, 1]).flatten =
      ((fetchMessages commFlag fs clientID {}).1,
        [.fetch clientID (.done (fetchMessages commFlag fs clientID {}).2),
          .fetch clientID (.done (fetchMessages commFlag fs clientID {}).2)]) := by
  obtain ⟨n, hn⟩ := fetch_alone commFlag fs clientID
  exact ⟨n, by rw [interleave_lockstep, hn]⟩

/-- The messages a pull alone hands out are those of the directory, as a multiset. -/
theorem coe_map_readDir (d : Dir) :
    (((readDir d).map fun f => wrapWithFlag commFlag f.2 : List Bytes) : Multiset Bytes) =
      (inboxMessages (some d)).map (wrapWithFlag commFlag) := by
  rw [← coe_readDir_snd, Multiset.map_coe, List.map_map]
  rfl

/-- A directory that holds a file lists at least one. -/
theorem length_readDir_ne_zero {d : Dir} {name : String} {dat : Bytes}
    (h : d.lookup name = some dat) : (readDir d).length ≠ 0 := by
  rw [readDir, (List.perm_insertionSort _ _).length_eq]
  intro hlen
  rw [List.length_eq_zero] at hlen
  simp [AList.lookup, hlen] at h

/-- A pull of an inbox that lists files, run alone in the middle of any schedule, hands
out all of them, wrapped, and leaves the inbox without files. -/
theorem interleave_fetch_listed {fs : FileSystem} {clientID : String} {d : Dir}
    (hd : fs (inboxPath clientID) = some d) (hlen : (readDir d).length ≠ 0) (hs : List Handler)
    {i : ℕ} (hi : hs[i]? = some (.fetch clientID .start)) :
    ∃ n c', c'.entries = [] ∧ interleave commFlag fs hs (List.replicate n i) =
      (Function.update fs (inboxPath clientID) (some c'),
        hs.set i (.fetch clientID (.done (.ok ("SI", (readDir d).map fun f =>
          wrapWithFlag commFlag f.2))))) := by
  obtain ⟨c', hc', hloop⟩ :=
    @fetchLoop_readDir commFlag _ {} _ _ (fun _ => rfl) (fun _ => rfl) hd
  obtain ⟨n, hn⟩ := fetch_alone commFlag fs clientID
  refine ⟨n, c', hc', ?_⟩
  rw [interleave_replicate commFlag n hi, hn]
  simp [fetchMessages, hd, hlen, hloop, Except.map]

/-- **Two pulls can lose a message.**  Let a client's inbox list at least two files.  The
first pull reads and removes the first file; the second pull then lists the inbox, reads
and removes every file left; the first pull's next read fails, so it returns an error
and hands out nothing.  The second pull's messages, with those left in the inbox, are the
inbox's messages without the first file's: that message is lost.  No call failed but
for the read of a file another pull had removed. -/
theorem interleave_fetch_fetch_loses {fs : FileSystem} {clientID : String} {d : Dir}
    {f₀ f₁ : Σ _ : String, Bytes} {files : List (Σ _ : String, Bytes)}
    (hd : fs (inboxPath clientID) = some d) (hlist : readDir d = f₀ :: f₁ :: files) :
    ∃ schedule fs' e msgs,
      interleave commFlag fs [.fetch clientID .start, .fetch clientID .start] schedule =
        (fs', [.fetch clientID (.done (.error e)), .fetch clientID (.done (.ok ("SI", msgs)))]) ∧
      (msgs : Multiset Bytes) +
          (inboxMessages (fs' (inboxPath clientID))).map (wrapWithFlag commFlag) +
          {wrapWithFlag commFlag f₀.2} =
        (inboxMessages (some d)).map (wrapWithFlag commFlag) := by
  have hf₀ : d.lookup f₀.1 = some f₀.2 := lookup_of_mem_readDir (by simp [hlist])
  have hf₁ : d.lookup f₁.1 = some f₁.2 := lookup_of_mem_readDir (by simp [hlist])
  have hne : f₁.1 ≠ f₀.1 := by
    have hnd := nodup_keys_readDir d
    rw [hlist, List.map_cons, List.map_cons, List.nodup_cons, List.mem_cons, not_or] at hnd
    exact fun h => hnd.1.1 h.symm
  -- The first pull lists the inbox, reads the first file and removes it.
  have hA : interleave commFlag fs [.fetch clientID .start, .fetch clientID .start] [0, 0, 0] =
      (removeFile fs (inboxPath clientID) f₀.1,
        [.fetch clientID (.read (f₁.1 :: files.map Sigma.fst) [wrapWithFlag commFlag f₀.2]),
          .fetch clientID .start]) := by
    simp [interleave, Handler.step, fetchStep, hd, hlist, readFile, hf₀]
  -- The second pull, alone, hands out every file left and empties the inbox.
  have hd' : removeFile fs (inboxPath clientID) f₀.1 (inboxPath clientID) =
      some (d.erase f₀.1) := by
    simp [removeFile, hd]
  obtain ⟨n, c', hc', hB⟩ := interleave_fetch_listed commFlag hd'
    (length_readDir_ne_zero ((AList.lookup_erase_ne hne).trans hf₁))
    [.fetch clientID (.read (f₁.1 :: files.map Sigma.fst) [wrapWithFlag commFlag f₀.2]),
      .fetch clientID .start] (i := 1) rfl
  refine ⟨[0, 0, 0] ++ List.replicate n 1 ++ [0],
    Function.update (removeFile fs (inboxPath clientID) f₀.1) (inboxPath clientID) (some c'),
    "open " ++ inboxPath clientID ++ "/" ++ f₁.1 ++ ": no such file or directory",
    (readDir (d.erase f₀.1)).map fun f => wrapWithFlag commFlag f.2, ?_, ?_⟩
  · -- The first pull's next read finds no file.
    rw [interleave_append, interleave_append, hA]
    dsimp only
    rw [hB]
    simp [interleave, Handler.step, fetchStep, readFile, AList.lookup, hc']
  · rw [Function.update_same, coe_map_readDir, ← inboxMessages_erase hf₀]
    simp [inboxMessages, hc']

theorem interleave_fetch_fetch_loses_twoMessages :
    ∃ schedule fs' e msgs,
      interleave [] aliceInboxes
          [.fetch "alice" .start, .fetch "alice" .start] schedule =
        (fs', [.fetch "alice" (.done (.error e)), .fetch "alice" (.done (.ok ("SI", msgs)))]) ∧
      (msgs : Multiset Bytes) + (inboxMessages (fs' (inboxPath "alice"))).map (wrapWithFlag []) +
          {wrapWithFlag [] [1]} =
        (inboxMessages (some twoMessageInbox)).map (wrapWithFlag []) :=
  @interleave_fetch_fetch_loses [] _ "alice" twoMessageInbox ⟨"TMP_MESSAGE_a.txt", [1]⟩
    ⟨"TMP_MESSAGE_b.txt", [2]⟩ [] (if_pos rfl) rfl

/-! ### A pull between a store's two calls -/

/-- **A pull between a store's two calls loses the stored message.**  Let a store create a
new file in an inbox, and a pull of that inbox run, alone, before the store writes.  The
pull hands out the inbox's messages and an empty one, the contents of the file just
created, and removes every file; the store's write then finds no file of the inbox, and
the store reports success.  What the pull handed out, with what is left in the inbox, is
the inbox's messages and an empty message: the stored message is in neither. -/
theorem interleave_store_fetch_loses {fs : FileSystem} {message : Bytes}
    {inboxID messageID : String} {d : Dir} (hd : fs (inboxPath inboxID) = some d)
    (hfresh : messageID ++ ".txt" ∉ inboxNames (fs (inboxPath inboxID))) :
    ∃ schedule fs' msgs,
      interleave commFlag fs [.store message inboxID messageID .start, .fetch inboxID .start]
          schedule =
        (fs', [.store message inboxID messageID (.done (.ok ())),
          .fetch inboxID (.done (.ok ("SI", msgs)))]) ∧
      (msgs : Multiset Bytes) +
          (inboxMessages (fs' (inboxPath inboxID))).map (wrapWithFlag commFlag) =
        (inboxMessages (some d)).map (wrapWithFlag commFlag) + {wrapWithFlag commFlag []} := by
  have hnew : messageID ++ ".txt" ∉ d := by
    simpa only [hd, inboxNames, AList.mem_keys] using hfresh
  -- The store creates an empty file.
  have hA : interleave commFlag fs
      [.store message inboxID messageID .start, .fetch inboxID .start] [0] =
      (Function.update fs (inboxPath inboxID) (some (d.insert (messageID ++ ".txt") [])),
        [.store message inboxID messageID .write, .fetch inboxID .start]) := by
    simp [interleave, Handler.step, storeStep, hd]
  -- The pull, alone, hands out every file, the new one too, and empties the inbox.
  obtain ⟨n, c', hc', hB⟩ := interleave_fetch_listed commFlag (Function.update_same _ _ fs)
    (length_readDir_ne_zero (AList.lookup_insert d))
    [.store message inboxID messageID .write, .fetch inboxID .start] (i := 1) rfl
  refine ⟨[0] ++ List.replicate n 1 ++ [0],
    Function.update (Function.update fs (inboxPath inboxID)
      (some (d.insert (messageID ++ ".txt") []))) (inboxPath inboxID) (some c'),
    (readDir (d.insert (messageID ++ ".txt") [])).map fun f => wrapWithFlag commFlag f.2,
    ?_, ?_⟩
  · -- The store's write finds no file.
    rw [interleave_append, interleave_append, hA]
    dsimp only
    rw [hB]
    simp [interleave, Handler.step, storeStep, AList.lookup, hc']
  · rw [Function.update_same, coe_map_readDir, inboxMessages_insert _ hnew]
    simp [inboxMessages, hc']

theorem interleave_store_fetch_loses_twoMessages :
    ∃ schedule fs' msgs,
      interleave [] aliceInboxes
          [.store [3] "alice" "TMP_MESSAGE_c" .start, .fetch "alice" .start] schedule =
        (fs', [.store [3] "alice" "TMP_MESSAGE_c" (.done (.ok ())),
          .fetch "alice" (.done (.ok ("SI", msgs)))]) ∧
      (msgs : Multiset Bytes) + (inboxMessages (fs' (inboxPath "alice"))).map (wrapWithFlag []) =
        (inboxMessages (some twoMessageInbox)).map (wrapWithFlag []) + {wrapWithFlag [] []} :=
  @interleave_store_fetch_loses [] _ [3] "alice" "TMP_MESSAGE_c" twoMessageInbox (if_pos rfl)
    (by decide)

end Steps

end Loopix
