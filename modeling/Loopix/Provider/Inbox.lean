import Loopix.Provider.Wire
import Mathlib.Data.List.AList
import Mathlib.Data.List.Sort
import Mathlib.Data.Multiset.Basic

/-!
# The inboxes: `storeMessage` and `fetchMessages`

A provider keeps each client's messages as files of one directory, `./inboxes/<id>`.
`storeMessage` creates a file there and writes the message into it; `fetchMessages`
lists the directory and, file by file, reads a file, wraps its contents for the client
and removes it.

Every call of the file system may fail.  The model takes, for each handler call, what
the operating system answers to each of its calls (`StoreOutcome`, `FetchOutcome`), so
that a theorem about all outcomes covers every pattern of failures.

A provider loses, duplicates and invents messages.  A fetch whose read fails after it
removed earlier files returns an error, and the removed messages are gone
(`fetchMessages_loses`); a removal that fails leaves a message it returned in the
inbox; a write that fails leaves a file holding part of the message.  Without these
three failures the inbox keeps its books (`runInbox_ledger`).

## Main definitions

* `Dir`, `FileSystem`, `inboxPath` — the directories the provider touches.
* `PlainName` — the names for which a path of the model is the operating system's.
* `storeMessage`, `fetchMessages` — as `part_001` writes them.
* `runInbox` — the store and fetch calls on one inbox, one after the other.
* `callsOn`, `applyCall` — a call on some inbox, seen from one inbox and applied.

## Main results

* `fetchLoop_of_clean` — the loop of `fetchMessages` when its reads and removals succeed.
* `runInbox_congr` — what a run does to its inbox depends on that inbox alone.
* `fetchMessages_loses` — **a fetch that fails midway loses the messages it removed.**
* `runInbox_ledger` — **without those failures, every stored message is fetched once or
  is still stored.**
-/

namespace Loopix

/-! ### The file system -/

/-- The files of a directory, by name: a directory holds one file of a name. -/
abbrev Dir := AList fun _ : String => Bytes

/-- The directories the provider's handlers touch, by path, with their files; `none`
where there is no directory.  The directory of the inboxes, `./inboxes/`, is the path of the
id `""`: the model keeps the files stored there, but not the client directories it also
holds, which Go's `ReadDir` lists and `ReadFile` then fails on, so a fetch for `""` reads
only those files here. -/
abbrev FileSystem := String → Option Dir

/-- `fmt.Sprintf("./inboxes/%s", id)`: the directory of an inbox. -/
def inboxPath (id : String) : String := "./inboxes/" ++ id

theorem inboxPath_inj {a b : String} : inboxPath a = inboxPath b ↔ a = b :=
  ⟨fun h => String.ext (by simpa [inboxPath] using congrArg String.data h), congrArg _⟩

/-- A name the operating system takes as one entry of a directory: not empty, not `.` or
`..`, and with no `/` and no NUL.  The model keys a directory by the text of its path and a
file by its name, which is what the operating system resolves them to exactly for such
names: `./inboxes/a/` and `./inboxes/a` are one directory, `./inboxes/` is the directory of
the inboxes and `x/../y.txt` is `y.txt` in a directory holding `x`.  The theorems about the
file system take the inbox ids and file names they speak of to be plain. -/
def PlainName (s : String) : Prop :=
  s ≠ "" ∧ s ≠ "." ∧ s ≠ ".." ∧ '/' ∉ s.data ∧ Char.ofNat 0 ∉ s.data

instance : DecidablePred PlainName := fun s =>
  inferInstanceAs (Decidable (s ≠ "" ∧ s ≠ "." ∧ s ≠ ".." ∧ '/' ∉ s.data ∧ Char.ofNat 0 ∉ s.data))

example : PlainName "TMP_MESSAGE_a.txt" ∧ ¬PlainName "alice/" ∧ ¬PlainName "" := by decide

theorem mem_hexChars {c : Char} : ∀ {b : Bytes}, c ∈ hexChars b → ∃ n < 16, hexDigit n = c
  | [], h => absurd h (List.not_mem_nil c)
  | x :: _, h => by
    have hx : x.toNat < 256 := x.val.isLt
    rcases List.mem_cons.mp h with rfl | h
    · exact ⟨_, by omega, rfl⟩
    rcases List.mem_cons.mp h with rfl | h
    · exact ⟨_, by omega, rfl⟩
    exact mem_hexChars h

/-- **The name of a non-empty key is plain**: it is made of hexadecimal digits. -/
theorem plainName_hexString {b : Bytes} (hb : b ≠ []) : PlainName (hexString b) := by
  have hdigit : ∀ c ∈ (hexString b).data, c ≠ '.' ∧ c ≠ '/' ∧ c ≠ Char.ofNat 0 := by
    intro c hc
    obtain ⟨n, hn, rfl⟩ := mem_hexChars hc
    have : ∀ n < 16, hexDigit n ≠ '.' ∧ hexDigit n ≠ '/' ∧ hexDigit n ≠ Char.ofNat 0 := by decide
    exact this n hn
  refine ⟨fun h => hb ((hexString_eq_empty_iff b).mp h), fun h => ?_, fun h => ?_,
    fun h => (hdigit _ h).2.1 rfl, fun h => (hdigit _ h).2.2 rfl⟩
  all_goals exact (hdigit '.' (by rw [h]; decide)).1 rfl

/-- The messages of an inbox: the contents of its files, in no order. -/
def inboxMessages : Option Dir → Multiset Bytes
  | none => 0
  | some d => (d.entries.map Sigma.snd : List Bytes)

/-- The names of an inbox's files. -/
def inboxNames : Option Dir → List String
  | none => []
  | some d => d.keys

/-- Removing a file takes its contents out of the inbox's messages. -/
theorem inboxMessages_erase {d : Dir} {name : String} {dat : Bytes}
    (h : d.lookup name = some dat) :
    inboxMessages (some (d.erase name)) + {dat} = inboxMessages (some d) := by
  have hmem : name ∈ d.entries.keys := AList.mem_keys.mp (AList.lookup_isSome.mp (by simp [h]))
  obtain ⟨b, l₁, l₂, hl₁, he, hk⟩ := List.exists_of_kerase hmem
  have hb : b = dat := by
    rw [AList.lookup, he, List.dlookup_append, List.dlookup_eq_none.mpr hl₁,
      List.dlookup_cons_eq] at h
    exact Option.some_inj.mp h
  have herase : (d.erase name).entries = l₁ ++ l₂ := hk
  simp only [inboxMessages, herase, he, hb, List.map_append, List.map_cons, ← Multiset.coe_add,
    ← Multiset.cons_coe]
  rw [add_comm, Multiset.singleton_add, Multiset.add_cons]

/-- Creating a new file puts its contents among the inbox's messages. -/
theorem inboxMessages_insert {d : Dir} {name : String} (dat : Bytes) (h : name ∉ d) :
    inboxMessages (some (d.insert name dat)) = inboxMessages (some d) + {dat} := by
  rw [inboxMessages, inboxMessages, AList.insert_entries_of_neg h, List.map_cons, add_comm,
    Multiset.singleton_add, Multiset.cons_coe]

/-! ### `storeMessage` -/

/-- What the operating system answers to the calls of one `storeMessage`. -/
structure StoreOutcome where
  /-- The error of `os.Create`, if it fails although the directory exists. -/
  create : Option String := none
  /-- If `file.Write` fails: how many bytes it wrote first, and its error. -/
  write : Option (ℕ × String) := none

/-- `storeMessage(message, inboxID, messageID)`: create `<messageID>.txt` in the inbox,
then write the message into it.  `os.Create` leaves an empty file, so a write that
fails leaves what it wrote. -/
def storeMessage (fs : FileSystem) (message : Bytes) (inboxID messageID : String)
    (out : StoreOutcome) : FileSystem × Except String Unit :=
  let path := inboxPath inboxID
  let fileName := messageID ++ ".txt"
  match fs path, out.create, out.write with
  | none, _, _ =>
    (fs, .error ("open " ++ path ++ "/" ++ fileName ++ ": no such file or directory"))
  | some _, some e, _ => (fs, .error e)
  | some d, none, none => (Function.update fs path (some (d.insert fileName message)), .ok ())
  | some d, none, some (n, e) =>
    (Function.update fs path (some (d.insert fileName (message.take n))), .error e)

/-- `storeMessage` touches no directory but the inbox. -/
theorem storeMessage_frame (fs : FileSystem) (message : Bytes) (inboxID messageID : String)
    (out : StoreOutcome) {q : String} (hq : q ≠ inboxPath inboxID) :
    (storeMessage fs message inboxID messageID out).1 q = fs q := by
  unfold storeMessage
  dsimp only
  split
  · rfl
  · rfl
  all_goals exact Function.update_noteq hq _ _

/-- What `storeMessage` does to its inbox, and what it returns, depends on that inbox
alone. -/
theorem storeMessage_congr {fs fs' : FileSystem} {inboxID : String}
    (h : fs (inboxPath inboxID) = fs' (inboxPath inboxID)) (message : Bytes)
    (messageID : String) (out : StoreOutcome) :
    (storeMessage fs message inboxID messageID out).1 (inboxPath inboxID) =
        (storeMessage fs' message inboxID messageID out).1 (inboxPath inboxID) ∧
      (storeMessage fs message inboxID messageID out).2 =
        (storeMessage fs' message inboxID messageID out).2 := by
  unfold storeMessage
  dsimp only
  rw [h]
  split <;> simp [h]

/-- `storeMessage` neither makes nor removes its inbox. -/
@[simp] theorem storeMessage_isSome (fs : FileSystem) (message : Bytes)
    (inboxID messageID : String) (out : StoreOutcome) :
    ((storeMessage fs message inboxID messageID out).1 (inboxPath inboxID)).isSome =
      (fs (inboxPath inboxID)).isSome := by
  unfold storeMessage
  dsimp only
  split <;> simp [*]

/-- A store that writes the whole message adds it to the inbox, or fails and changes
nothing; its file's name is the only new one. -/
theorem storeMessage_of_clean {fs fs' : FileSystem} {message : Bytes}
    {inboxID messageID : String} {out : StoreOutcome} {r : Except String Unit}
    (hw : out.write = none) (hfresh : messageID ++ ".txt" ∉ inboxNames (fs (inboxPath inboxID)))
    (h : storeMessage fs message inboxID messageID out = (fs', r)) :
    inboxMessages (fs' (inboxPath inboxID)) =
        inboxMessages (fs (inboxPath inboxID)) + (if r.isOk then {message} else 0) ∧
      ∀ n ∈ inboxNames (fs' (inboxPath inboxID)),
        n ∈ inboxNames (fs (inboxPath inboxID)) ∨ n = messageID ++ ".txt" := by
  unfold storeMessage at h
  dsimp only at h
  split at h
  · cases h
    exact ⟨by simp [Except.isOk, Except.toBool], fun n hn => .inl hn⟩
  · cases h
    exact ⟨by simp [Except.isOk, Except.toBool], fun n hn => .inl hn⟩
  · rename_i d hd _ _
    cases h
    simp only [hd, inboxNames, AList.mem_keys] at hfresh ⊢
    simp only [Function.update_same, inboxMessages_insert _ hfresh, inboxNames, if_true,
      Except.isOk, Except.toBool, AList.keys_insert, List.mem_cons, true_and]
    rintro n (rfl | hn)
    · exact .inr rfl
    · exact .inl (List.mem_of_mem_erase hn)
  · rename_i hw'
    rw [hw] at hw'
    cases hw'

/-! ### `fetchMessages` -/

section Fetch

variable (commFlag : Bytes)

/-- What the operating system answers to the calls of one `fetchMessages`. -/
structure FetchOutcome where
  /-- The error of `helpers.DirExists`, if it fails. -/
  dirExists : Option String := none
  /-- The error of `ioutil.ReadDir`, if it fails. -/
  readDir : Option String := none
  /-- The error of the `i`-th `ioutil.ReadFile`, if it fails. -/
  readFile : ℕ → Option String := fun _ => none
  /-- The error of the `i`-th `os.Remove`, if it fails. -/
  remove : ℕ → Option String := fun _ => none

/-- `ioutil.ReadDir`: a directory's files, sorted by name (the order of code points is
the order of the UTF-8 bytes Go compares). -/
def readDir (d : Dir) : List (Σ _ : String, Bytes) :=
  @List.insertionSort _ (fun a b => @LE.le String String.instLE a.1 b.1)
    (fun a b => String.decLE a.1 b.1) d.entries

/-- `ioutil.ReadFile(path/name)`. -/
def readFile (fs : FileSystem) (path name : String) : Except String Bytes :=
  match (fs path).bind (AList.lookup name) with
  | some dat => .ok dat
  | none => .error ("open " ++ path ++ "/" ++ name ++ ": no such file or directory")

/-- `os.Remove(path/name)`, when it succeeds. -/
def removeFile (fs : FileSystem) (path name : String) : FileSystem :=
  Function.update fs path ((fs path).map (AList.erase name))

/-- The loop of `fetchMessages` over the listed files from the `i`-th on, with the
messages wrapped so far.  A failed removal is only logged. -/
def fetchLoop (path : String) (out : FetchOutcome) :
    FileSystem → ℕ → List (Σ _ : String, Bytes) → List Bytes →
      FileSystem × Except String (List Bytes)
  | fs, _, [], messagesBytes => (fs, .ok messagesBytes)
  | fs, i, f :: files, messagesBytes =>
    match out.readFile i, readFile fs path f.1 with
    | some e, _ | none, .error e => (fs, .error e)
    | none, .ok dat =>
      let msgBytes := wrapWithFlag commFlag dat
      let fs := if (out.remove i).isSome then fs else removeFile fs path f.1
      fetchLoop path out fs (i + 1) files (messagesBytes ++ [msgBytes])

/-- `fetchMessages(clientID)`: the signal `NI` (no inbox), `EI` (empty inbox) or `SI`
(messages sent), and the messages, each wrapped with `CommFlag`. -/
def fetchMessages (fs : FileSystem) (clientID : String) (out : FetchOutcome) :
    FileSystem × Except String (String × List Bytes) :=
  let path := inboxPath clientID
  match out.dirExists, fs path, out.readDir with
  | some e, _, _ => (fs, .error e)
  | none, none, _ => (fs, .ok ("NI", []))
  | none, some _, some e => (fs, .error e)
  | none, some d, none =>
    let files := readDir d
    if files.length = 0 then (fs, .ok ("EI", []))
    else
      let r := fetchLoop commFlag path out fs 0 files []
      (r.1, r.2.map fun messagesBytes => ("SI", messagesBytes))

theorem fetchLoop_frame (path : String) (out : FetchOutcome) {q : String} (hq : q ≠ path) :
    ∀ (fs : FileSystem) (i : ℕ) (files : List (Σ _ : String, Bytes)) (acc : List Bytes),
      (fetchLoop commFlag path out fs i files acc).1 q = fs q
  | _, _, [], _ => rfl
  | fs, i, f :: files, acc => by
    unfold fetchLoop
    split
    · rfl
    · rfl
    · rw [fetchLoop_frame path out hq]
      split
      · rfl
      · exact Function.update_noteq hq _ _

/-- What the loop does to its directory, and what it returns, depends on that directory
alone. -/
theorem fetchLoop_congr (path : String) (out : FetchOutcome) :
    ∀ {fs fs' : FileSystem} (i : ℕ) (files : List (Σ _ : String, Bytes)) (acc : List Bytes),
      fs path = fs' path →
        (fetchLoop commFlag path out fs i files acc).1 path =
            (fetchLoop commFlag path out fs' i files acc).1 path ∧
          (fetchLoop commFlag path out fs i files acc).2 =
            (fetchLoop commFlag path out fs' i files acc).2
  | _, _, _, [], _, h => ⟨h, rfl⟩
  | fs, fs', i, f :: files, acc, h => by
    have hread : readFile fs path f.1 = readFile fs' path f.1 := by simp only [readFile, h]
    unfold fetchLoop
    rw [hread]
    split
    · exact ⟨h, rfl⟩
    · exact ⟨h, rfl⟩
    · dsimp only
      exact fetchLoop_congr path out _ _ _ (by split <;> simp [removeFile, h])

/-- The loop neither makes nor removes its directory. -/
theorem fetchLoop_isSome (path : String) (out : FetchOutcome) :
    ∀ (fs : FileSystem) (i : ℕ) (files : List (Σ _ : String, Bytes)) (acc : List Bytes),
      ((fetchLoop commFlag path out fs i files acc).1 path).isSome = (fs path).isSome
  | _, _, [], _ => rfl
  | fs, i, f :: files, acc => by
    unfold fetchLoop
    split
    · rfl
    · rfl
    · dsimp only
      rw [fetchLoop_isSome]
      split <;> simp [removeFile]

/-- `fetchMessages` touches no directory but the inbox. -/
theorem fetchMessages_frame (fs : FileSystem) (clientID : String) (out : FetchOutcome)
    {q : String} (hq : q ≠ inboxPath clientID) :
    (fetchMessages commFlag fs clientID out).1 q = fs q := by
  unfold fetchMessages
  dsimp only
  split
  iterate 3 rfl
  split
  · rfl
  · exact fetchLoop_frame commFlag _ out hq _ _ _ _

/-- What `fetchMessages` does to its inbox, and what it returns, depends on that inbox
alone. -/
theorem fetchMessages_congr {fs fs' : FileSystem} {clientID : String}
    (h : fs (inboxPath clientID) = fs' (inboxPath clientID)) (out : FetchOutcome) :
    (fetchMessages commFlag fs clientID out).1 (inboxPath clientID) =
        (fetchMessages commFlag fs' clientID out).1 (inboxPath clientID) ∧
      (fetchMessages commFlag fs clientID out).2 = (fetchMessages commFlag fs' clientID out).2 := by
  unfold fetchMessages
  dsimp only
  rw [h]
  split
  iterate 3 exact ⟨h, rfl⟩
  split
  · exact ⟨h, rfl⟩
  · obtain ⟨h₁, h₂⟩ := fetchLoop_congr commFlag _ out 0 _ [] h
    exact ⟨h₁, by rw [h₂]⟩

/-- `fetchMessages` neither makes nor removes the inbox. -/
@[simp] theorem fetchMessages_isSome (fs : FileSystem) (clientID : String) (out : FetchOutcome) :
    ((fetchMessages commFlag fs clientID out).1 (inboxPath clientID)).isSome =
      (fs (inboxPath clientID)).isSome := by
  unfold fetchMessages
  dsimp only
  split
  iterate 3 rfl
  split
  · rfl
  · exact fetchLoop_isSome commFlag _ out _ _ _ _

/-- A listed file is a file of the directory. -/
theorem lookup_of_mem_readDir {d : Dir} {f : Σ _ : String, Bytes} (h : f ∈ readDir d) :
    d.lookup f.1 = some f.2 :=
  AList.mem_lookup_iff.mpr ((List.perm_insertionSort _ _).subset h)

theorem nodup_keys_readDir (d : Dir) : ((readDir d).map Sigma.fst).Nodup :=
  ((List.perm_insertionSort _ _).map Sigma.fst).nodup_iff.mpr d.keys_nodup

/-- **The loop when its reads and removals succeed**: it reads every listed file,
removes each, and returns them all, wrapped, in order. -/
theorem fetchLoop_of_clean {path : String} {out : FetchOutcome}
    (hrem : ∀ j, out.remove j = none) :
    ∀ {fs : FileSystem} {c : Dir} {i : ℕ} {files : List (Σ _ : String, Bytes)}
      {acc : List Bytes}, fs path = some c → (∀ f ∈ files, c.lookup f.1 = some f.2) →
      (files.map Sigma.fst).Nodup → (∀ j, i ≤ j → out.readFile j = none) →
      ∃ c', fetchLoop commFlag path out fs i files acc =
          (Function.update fs path (some c'),
            .ok (acc ++ files.map fun f => wrapWithFlag commFlag f.2)) ∧
        inboxMessages (some c') + (files.map Sigma.snd : List Bytes) = inboxMessages (some c)
  | fs, c, _, [], acc, hc, _, _, _ =>
    ⟨c, by simp [fetchLoop, ← hc], by simp⟩
  | fs, c, i, f :: files, acc, hc, hf, hnd, hread => by
    have hlook := hf f (List.mem_cons_self _ _)
    have hread' : readFile fs path f.1 = .ok f.2 := by simp [readFile, hc, hlook]
    rw [List.map_cons, List.nodup_cons] at hnd
    have hc' : removeFile fs path f.1 path = some (c.erase f.1) := by simp [removeFile, hc]
    have hf' : ∀ g ∈ files, (c.erase f.1).lookup g.1 = some g.2 := fun g hg =>
      (AList.lookup_erase_ne fun h => hnd.1 (by rw [← h]; exact List.mem_map_of_mem _ hg)).trans
        (hf g (List.mem_cons_of_mem _ hg))
    obtain ⟨c', hloop, hmsg⟩ := @fetchLoop_of_clean path out hrem _ _ (i + 1) files
      (acc ++ [wrapWithFlag commFlag f.2]) hc' hf' hnd.2 fun j hj => hread j (by omega)
    refine ⟨c', ?_, ?_⟩
    · simp only [fetchLoop, hread i le_rfl, hread', hrem, Option.isSome_none, Bool.false_eq_true,
        if_false, hloop]
      simp [removeFile]
    · rw [List.map_cons, ← Multiset.cons_coe, ← Multiset.singleton_add, ← add_assoc,
        add_right_comm, hmsg, inboxMessages_erase hlook]

/-- The messages a `fetchMessages` call hands to the client: none when it fails. -/
def fetched : Except String (String × List Bytes) → List Bytes
  | .ok (_, msgs) => msgs
  | .error _ => []

/-- A listing holds the messages of the directory. -/
theorem coe_readDir_snd (d : Dir) :
    (((readDir d).map Sigma.snd : List Bytes) : Multiset Bytes) = inboxMessages (some d) :=
  Multiset.coe_eq_coe.mpr ((List.perm_insertionSort _ _).map _)

/-- **The loop over a whole listing**, when every read and removal succeeds: it returns
every message of the directory, wrapped and in the listing's order, and leaves the
directory without files. -/
theorem fetchLoop_readDir {path : String} {out : FetchOutcome} {fs : FileSystem} {d : Dir}
    (hrem : ∀ j, out.remove j = none) (hread : ∀ j, out.readFile j = none)
    (hd : fs path = some d) :
    ∃ c' : Dir, c'.entries = [] ∧ fetchLoop commFlag path out fs 0 (readDir d) [] =
      (Function.update fs path (some c'),
        .ok ((readDir d).map fun f => wrapWithFlag commFlag f.2)) := by
  obtain ⟨c', hloop, hmsg⟩ := fetchLoop_of_clean commFlag hrem hd
    (fun f hf => lookup_of_mem_readDir hf) (nodup_keys_readDir d) fun j _ => hread j
  rw [coe_readDir_snd] at hmsg
  have hc' : inboxMessages (some c') = 0 := by simpa using hmsg
  exact ⟨c', by simpa [inboxMessages] using hc', by rw [hloop, List.nil_append]⟩

/-- A fetch whose removals succeed, and whose reads fail only at the first file if at
all, either returns every message of the inbox and empties it, or fails and changes
nothing. -/
theorem fetchMessages_of_clean {fs fs' : FileSystem} {clientID : String} {out : FetchOutcome}
    {r : Except String (String × List Bytes)}
    (hrem : ∀ j, out.remove j = none) (hread : ∀ j, 0 < j → out.readFile j = none)
    (h : fetchMessages commFlag fs clientID out = (fs', r)) :
    (fetched r : Multiset Bytes) +
        (inboxMessages (fs' (inboxPath clientID))).map (wrapWithFlag commFlag) =
      (inboxMessages (fs (inboxPath clientID))).map (wrapWithFlag commFlag) ∧
    inboxNames (fs' (inboxPath clientID)) ⊆ inboxNames (fs (inboxPath clientID)) ∧
    ∀ e, r = .error e → fs' = fs := by
  unfold fetchMessages at h
  dsimp only at h
  split at h
  iterate 3
    · cases h
      simp [fetched]
  rename_i d _ hd _
  split at h
  · cases h
    simp [fetched]
  rename_i hlen
  by_cases h0 : out.readFile 0 = none
  · obtain ⟨c', hc', hloop⟩ := fetchLoop_readDir commFlag hrem
      (fun j => if hj : j = 0 then hj ▸ h0 else hread j (Nat.pos_of_ne_zero hj)) hd
    rw [hloop] at h
    cases h
    simp only [Function.update_same, Except.map, fetched, hd, inboxMessages, hc', List.map_nil,
      Multiset.coe_nil, Multiset.map_zero, add_zero]
    refine ⟨?_, by simp [inboxNames, AList.keys, List.keys, hc'], nofun⟩
    rw [← inboxMessages, ← coe_readDir_snd, Multiset.map_coe, List.map_map]
    rfl
  · obtain ⟨e, he⟩ := Option.ne_none_iff_exists'.mp h0
    obtain ⟨f, files, hfiles⟩ := List.exists_cons_of_length_pos (Nat.pos_of_ne_zero hlen)
    simp only [hfiles, fetchLoop, he] at h
    cases h
    simp [fetched, Except.map, hd]

/-- **A fetch that fails midway loses the messages it removed.**  Let the inbox list at
least two files.  When the first is read and removed, and reading the second fails,
`fetchMessages` returns that error, so the client gets nothing; and the first file is
gone from the inbox, its message with it. -/
theorem fetchMessages_loses {fs : FileSystem} {clientID : String} {out : FetchOutcome}
    {d : Dir} {f₀ f₁ : Σ _ : String, Bytes} {files : List (Σ _ : String, Bytes)} {e : String}
    (hd : fs (inboxPath clientID) = some d) (hlist : readDir d = f₀ :: f₁ :: files)
    (hdir : out.dirExists = none) (hrd : out.readDir = none) (hread₀ : out.readFile 0 = none)
    (hrem₀ : out.remove 0 = none) (hread₁ : out.readFile 1 = some e) :
    fetchMessages commFlag fs clientID out =
        (Function.update fs (inboxPath clientID) (some (d.erase f₀.1)), .error e) ∧
      inboxMessages (some (d.erase f₀.1)) + {f₀.2} = inboxMessages (some d) := by
  have hlook := lookup_of_mem_readDir (d := d) (f := f₀)
    (by rw [hlist]; exact List.mem_cons_self _ _)
  refine ⟨?_, inboxMessages_erase hlook⟩
  simp [fetchMessages, hdir, hd, hrd, hlist, fetchLoop, hread₀, hread₁, hrem₀, readFile,
    hlook, removeFile, Except.map]

/-- Two messages in the inbox of `alice`, under the names `storeMessage` gives them. -/
def twoMessageInbox : Dir :=
  ((∅ : Dir).insert "TMP_MESSAGE_b.txt" [2]).insert "TMP_MESSAGE_a.txt" [1]

theorem fetchMessages_loses_twoMessages :
    fetchMessages [] (fun p => if p = inboxPath "alice" then some twoMessageInbox else none)
        "alice" { readFile := fun i => if i = 1 then some "input/output error" else none } =
      (Function.update (fun p => if p = inboxPath "alice" then some twoMessageInbox else none)
          (inboxPath "alice") (some (twoMessageInbox.erase "TMP_MESSAGE_a.txt")),
        .error "input/output error") ∧
      inboxMessages (some (twoMessageInbox.erase "TMP_MESSAGE_a.txt")) + {[1]} =
        inboxMessages (some twoMessageInbox) :=
  @fetchMessages_loses [] _ "alice" _ twoMessageInbox ⟨"TMP_MESSAGE_a.txt", [1]⟩
    ⟨"TMP_MESSAGE_b.txt", [2]⟩ [] "input/output error" (if_pos rfl) rfl rfl rfl rfl rfl rfl

/-! ### Runs on one inbox -/

/-- A call on one inbox, with what the operating system answers to its calls. -/
inductive InboxCall where
  /-- `storeMessage(message, inboxID, messageID)`. -/
  | store (message : Bytes) (messageID : String) (out : StoreOutcome)
  /-- `fetchMessages(inboxID)`. -/
  | fetch (out : FetchOutcome)

/-- The id a call stores its message under. -/
def InboxCall.messageID? : InboxCall → Option String
  | .store _ messageID _ => some messageID
  | .fetch _ => none

/-- The failures an inbox survives: a write, once begun, completes; a fetch's removals
succeed, and its reads fail only at the first file, if at all. -/
def InboxCall.Clean : InboxCall → Prop
  | .store _ _ out => out.write = none
  | .fetch out => (∀ j, out.remove j = none) ∧ ∀ j, 0 < j → out.readFile j = none

/-- Serve calls on the inbox of `inboxID` one after the other: the file system after
them, the messages of the stores that returned nil, and the messages handed out by the
fetches that returned without error. -/
def runInbox (inboxID : String) :
    FileSystem → List InboxCall → FileSystem × List Bytes × List Bytes
  | fs, [] => (fs, [], [])
  | fs, .store message messageID out :: calls =>
    let s := storeMessage fs message inboxID messageID out
    let rest := runInbox inboxID s.1 calls
    (rest.1, (if s.2.isOk then [message] else []) ++ rest.2.1, rest.2.2)
  | fs, .fetch out :: calls =>
    let f := fetchMessages commFlag fs inboxID out
    let rest := runInbox inboxID f.1 calls
    (rest.1, rest.2.1, fetched f.2 ++ rest.2.2)

/-- The calls on the inbox of `inboxID` among an optional call on some inbox. -/
def callsOn (inboxID : String) : Option (String × InboxCall) → List InboxCall
  | some (i, call) => if i = inboxID then [call] else []
  | none => []

/-- An optional call on some inbox names plain entries: its inbox and, for a store, its
file. -/
def PlainCall : Option (String × InboxCall) → Prop
  | some (inboxID, call) => PlainName inboxID ∧ ∀ id ∈ call.messageID?, PlainName (id ++ ".txt")
  | none => True

/-- An optional call on some inbox, applied to the file system. -/
def applyCall (fs : FileSystem) : Option (String × InboxCall) → FileSystem
  | some (inboxID, call) => (runInbox commFlag inboxID fs [call]).1
  | none => fs

/-- Seen from one inbox, a call applies when it is a call on that inbox, and changes
nothing otherwise. -/
theorem applyCall_inbox (fs : FileSystem) (inboxID : String) :
    ∀ call : Option (String × InboxCall), applyCall commFlag fs call (inboxPath inboxID) =
      (runInbox commFlag inboxID fs (callsOn inboxID call)).1 (inboxPath inboxID)
  | none => rfl
  | some (i, call) => by
    by_cases h : i = inboxID
    · subst h
      simp only [applyCall, callsOn, if_true]
    · have hq : inboxPath inboxID ≠ inboxPath i := fun hq => h (inboxPath_inj.mp hq).symm
      rw [applyCall, callsOn, if_neg h]
      cases call with
      | store message messageID out => exact storeMessage_frame _ _ _ _ _ hq
      | fetch out => exact fetchMessages_frame commFlag _ _ _ hq

theorem runInbox_append (inboxID : String) :
    ∀ (fs : FileSystem) (calls calls' : List InboxCall),
      runInbox commFlag inboxID fs (calls ++ calls') =
        ((runInbox commFlag inboxID (runInbox commFlag inboxID fs calls).1 calls').1,
          (runInbox commFlag inboxID fs calls).2.1 ++
            (runInbox commFlag inboxID (runInbox commFlag inboxID fs calls).1 calls').2.1,
          (runInbox commFlag inboxID fs calls).2.2 ++
            (runInbox commFlag inboxID (runInbox commFlag inboxID fs calls).1 calls').2.2)
  | _, [], _ => rfl
  | fs, .store message messageID out :: calls, calls' => by
    simp only [List.cons_append, runInbox, List.append_eq, runInbox_append inboxID _ calls,
      List.append_assoc]
  | fs, .fetch out :: calls, calls' => by
    simp only [List.cons_append, runInbox, List.append_eq, runInbox_append inboxID _ calls,
      List.append_assoc]

/-- What a run does to its inbox, and what it returns, depends on that inbox alone. -/
theorem runInbox_congr (inboxID : String) :
    ∀ {fs fs' : FileSystem} (calls : List InboxCall),
      fs (inboxPath inboxID) = fs' (inboxPath inboxID) →
        (runInbox commFlag inboxID fs calls).1 (inboxPath inboxID) =
            (runInbox commFlag inboxID fs' calls).1 (inboxPath inboxID) ∧
          (runInbox commFlag inboxID fs calls).2 = (runInbox commFlag inboxID fs' calls).2
  | _, _, [], h => ⟨h, rfl⟩
  | fs, fs', .store message messageID out :: calls, h => by
    obtain ⟨h₁, h₂⟩ := storeMessage_congr h message messageID out
    obtain ⟨ih₁, ih₂⟩ := runInbox_congr inboxID calls h₁
    simp only [runInbox, ih₁, ih₂, h₂, and_self]
  | fs, fs', .fetch out :: calls, h => by
    obtain ⟨h₁, h₂⟩ := fetchMessages_congr commFlag h out
    obtain ⟨ih₁, ih₂⟩ := runInbox_congr inboxID calls h₁
    simp only [runInbox, ih₁, ih₂, h₂, and_self]

/-- A run neither makes nor removes its inbox. -/
theorem runInbox_isSome (inboxID : String) :
    ∀ (fs : FileSystem) (calls : List InboxCall),
      ((runInbox commFlag inboxID fs calls).1 (inboxPath inboxID)).isSome =
        (fs (inboxPath inboxID)).isSome
  | _, [] => rfl
  | fs, .store message messageID out :: calls => by
    simp only [runInbox, runInbox_isSome inboxID _ calls, storeMessage_isSome]
  | fs, .fetch out :: calls => by
    simp only [runInbox, runInbox_isSome inboxID _ calls, fetchMessages_isSome]

/-- **Without the failures that lose, duplicate or invent messages, an inbox keeps its
books.**  Run store and fetch calls on one inbox of a plain name, the stores under pairwise
distinct ids whose files have plain names and are not in the inbox yet; let every write
complete, every removal succeed, and reads fail only at a fetch's first file.  Then the
messages the fetches hand out, with those still stored, are the messages stored at the
start with those whose store returned nil.  Fetched messages come wrapped with `CommFlag`,
so the others are counted wrapped too.  (Distinct ids that are not plain, such as `y` and
`./y`, name one file, and the second store overwrites the first.) -/
theorem runInbox_ledger (inboxID : String) (hid : PlainName inboxID) :
    ∀ (fs : FileSystem) (calls : List InboxCall), (∀ c ∈ calls, c.Clean) →
      (∀ id ∈ calls.filterMap InboxCall.messageID?, PlainName (id ++ ".txt")) →
      (calls.filterMap InboxCall.messageID?).Nodup →
      (∀ id ∈ calls.filterMap InboxCall.messageID?,
        id ++ ".txt" ∉ inboxNames (fs (inboxPath inboxID))) →
      ((runInbox commFlag inboxID fs calls).2.2 : Multiset Bytes) +
          (inboxMessages ((runInbox commFlag inboxID fs calls).1 (inboxPath inboxID))).map
            (wrapWithFlag commFlag) =
        (inboxMessages (fs (inboxPath inboxID)) +
          ((runInbox commFlag inboxID fs calls).2.1 : Multiset Bytes)).map (wrapWithFlag commFlag)
  | fs, [], _, _, _, _ => by simp [runInbox]
  | fs, .store message messageID out :: calls, hclean, hplain, hnd, hfresh => by
    rcases hs : storeMessage fs message inboxID messageID out with ⟨fs₁, r₁⟩
    simp only [List.filterMap_cons, InboxCall.messageID?, List.nodup_cons, List.mem_cons,
      forall_eq_or_imp] at hplain hnd hfresh
    obtain ⟨hmsg, hnames⟩ :=
      storeMessage_of_clean (hclean _ (List.mem_cons_self _ _)) hfresh.1 hs
    have hfresh₁ : ∀ id ∈ calls.filterMap InboxCall.messageID?,
        id ++ ".txt" ∉ inboxNames (fs₁ (inboxPath inboxID)) := fun id hid hin =>
      (hnames _ hin).elim (hfresh.2 id hid) fun h =>
        hnd.1 (String.ext (List.append_cancel_right (congrArg String.data h)) ▸ hid)
    have ih := runInbox_ledger inboxID hid fs₁ calls
      (fun c hc => hclean c (List.mem_cons_of_mem _ hc)) hplain.2 hnd.2 hfresh₁
    simp only [runInbox, hs, ih, hmsg, ← Multiset.coe_add, add_assoc]
    split <;> simp
  | fs, .fetch out :: calls, hclean, hplain, hnd, hfresh => by
    rcases hf : fetchMessages commFlag fs inboxID out with ⟨fs₁, r₁⟩
    simp only [List.filterMap_cons, InboxCall.messageID?] at hplain hnd hfresh
    obtain ⟨hrem, hread⟩ := hclean _ (List.mem_cons_self _ _)
    obtain ⟨hmsg, hnames, -⟩ := fetchMessages_of_clean commFlag hrem hread hf
    have ih := runInbox_ledger inboxID hid fs₁ calls
      (fun c hc => hclean c (List.mem_cons_of_mem _ hc)) hplain hnd
      fun id hid' hin => hfresh id hid' (hnames hin)
    simp only [runInbox, hf, ← Multiset.coe_add, add_assoc, ih, Multiset.map_add, ← hmsg]

/-- Two stores into the empty inbox of `alice`, then a fetch. -/
theorem runInbox_ledger_storeStoreFetch :
    ((runInbox [] "alice" (fun p => if p = inboxPath "alice" then some ∅ else none)
          [.store [1] "a" {}, .store [2] "b" {}, .fetch {}]).2.2 : Multiset Bytes) +
        (inboxMessages ((runInbox [] "alice"
          (fun p => if p = inboxPath "alice" then some ∅ else none)
          [.store [1] "a" {}, .store [2] "b" {}, .fetch {}]).1 (inboxPath "alice"))).map
          (wrapWithFlag []) =
      (inboxMessages ((fun p => if p = inboxPath "alice" then some ∅ else none)
          (inboxPath "alice")) +
        ((runInbox [] "alice" (fun p => if p = inboxPath "alice" then some ∅ else none)
          [.store [1] "a" {}, .store [2] "b" {}, .fetch {}]).2.1 : Multiset Bytes)).map
        (wrapWithFlag []) :=
  runInbox_ledger [] "alice" (by decide) _ _ (by simp [InboxCall.Clean]) (by decide) (by decide)
    (by simp [InboxCall.messageID?, inboxNames])

end Fetch

end Loopix
