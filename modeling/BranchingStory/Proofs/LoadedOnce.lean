import BranchingStory.Library.Repository
import BranchingStory.Proofs.DiskChanges
import Mathlib.Data.List.Induction

/-!
# Repositories that are asked while files change

A repository is asked again and again, and between the questions anything may be written to the disk. Until its
document has been loaded every question is answered from the file as it is then, and a file that cannot be loaded
leaves no trace. The first file that can be loaded is the one that every later question is answered from, so a question
that fails for want of an entry has already settled which file that is. The answers of a story about its graph and about
single nodes come from the same load, and from the same of several nodes with one id.
-/

namespace BranchingStory

/-! ## Nodes by id -/

theorem Assoc.get?_ofPairs {α : Type} (pairs : Assoc α) (key : String) :
    get? (ofPairs pairs) key = (pairs.reverse.find? fun entry => entry.1 == key).map Prod.snd := by
  induction pairs using List.reverseRecOn with
  | nil => rfl
  | append_singleton pairs entry ih =>
    have hlast : ofPairs (pairs ++ [entry]) = insert (ofPairs pairs) entry.1 entry.2 := List.foldl_append ..
    rw [hlast, get?_insert, List.reverse_concat, List.find?_cons]
    by_cases hkey : entry.1 = key
    · simp [hkey]
    · have hother : (entry.1 == key) = false := by simpa using hkey
      rw [if_neg hkey, hother, ih]

theorem Graph.get?_byId (g : Graph) (id : String) : Assoc.get? g.byId id = g.node? id := by
  rw [byId, Assoc.get?_ofPairs, ← List.filterMap_reverse, List.find?_filterMap, node?]
  by_cases hempty : id = ""
  · have hnone : (g.nodes.reverse.find? fun n =>
        ((nonEmpty? n.id).map fun name => (name, n)).any fun entry => entry.1 == id) = none := by
      refine List.find?_eq_none.mpr fun n _ hn => ?_
      cases hname : nonEmpty? n.id with
      | none => simp [hname] at hn
      | some name => exact (nonEmpty?_eq_some.mp hname).2 (by simpa [hname, hempty] using hn)
    rw [hnone, if_pos hempty]
    rfl
  · have hnamed : (fun n : Node => ((nonEmpty? n.id).map fun name => (name, n)).any fun entry => entry.1 == id) =
        fun n => n.id == some id := by
      funext n
      cases hid : n.id with
      | none => rfl
      | some name => by_cases hname : name = "" <;> simp [nonEmpty?, hname, Ne.symm hempty]
    rw [hnamed, if_neg hempty]
    cases hfind : g.nodes.reverse.find? fun n => n.id == some id with
    | none => rfl
    | some n =>
      have hid : n.id = some id := by simpa using List.find?_some hfind
      simp [nonEmpty?_eq_some.mpr ⟨hid, hempty⟩]

/-! ## Questions -/

/-- What a repository can be asked for: what its document was built into, such as the graph of a story or the default
values of the flags; the definitions with their ids; the definitions; or the definition with an id. -/
inductive Question where
  | whole
  | entries
  | all
  | get (id : String)
deriving DecidableEq

def Question.Answer (α β : Type) : Question → Type
  | whole => α
  | entries => Assoc β
  | all => List β
  | get _ => β

namespace Source

variable {α β : Type}

/-- The answer to a question from what the document was built into. -/
def answer (s : Source α β) (a : α) : (q : Question) → Except LibraryFault (q.Answer α β)
  | .whole => .ok a
  | .entries => .ok (s.entries a)
  | .all => .ok (Assoc.values (s.entries a))
  | .get id =>
    match Assoc.get? (s.entries a) id with
    | some definition => .ok definition
    | none => .error (.noEntry id)

/-- What comes of the file of a source: there are no bytes, they hold no document, it has none of the shapes, or it is
built into something or complained of. -/
def ofFile (s : Source α β) (path : Path) (nesting room : Nat) : Except DiskFault (List UInt8) → Lookup α
  | .error fault => Attempt.fail (.load (.document path (.disk fault)))
  | .ok bytes =>
    match Json.ofBytes nesting bytes with
    | .error fault => Attempt.fail (.load (.document path fault))
    | .ok document =>
      if s.shapes.any (·.fits document) then (s.build room document).mapError .complaint
      else Attempt.fail (.load (.shape path s.shapes))

/-- What comes of the file as it is on a disk. -/
def onDisk (s : Source α β) (directory : Path) (d : Disk) : Lookup α :=
  s.ofFile (directory.file s.name) d.nesting d.room (d.read (directory.file s.name))

/-- What is loaded is what comes of the file. -/
theorem load_eq_onDisk (s : Source α β) (directory : Path) (d : Disk) : s.load directory d = s.onDisk directory d := by
  rw [load, onDisk, Disk.load]
  cases hread : d.read (directory.file s.name) with
  | error fault =>
    rw [Disk.readDocument_of_error hread]
    rfl
  | ok bytes =>
    rw [Disk.readDocument_of_ok hread, ofFile]
    cases Json.ofBytes d.nesting bytes with
    | error fault => rfl
    | ok document =>
      simp only [Except.mapError, bind, Except.bind]
      cases s.shapes.any (·.fits document) <;> rfl

/-- What is built from the file on the first of the disks on which anything is. -/
def firstLoad (s : Source α β) (directory : Path) (disks : List Disk) : Option α :=
  disks.findSome? fun d => (s.onDisk directory d).result.toOption

end Source

namespace Repository

variable {α β : Type} {r : Repository α β} {env : Environment} {d : Disk}

/-- The definitions that are kept are those of what is kept beside them; both are there or neither. -/
def Matched (r : Repository α β) : Prop := r.definitions = r.aside.map r.source.entries

/-- The repository with what its document was built into. -/
def holding (r : Repository α β) (a : α) : Repository α β :=
  { r with definitions := some (r.source.entries a), aside := some a }

theorem matched_holding (r : Repository α β) (a : α) : (r.holding a).Matched := rfl

theorem holding_of_aside {a : α} (hr : r.Matched) (h : r.aside = some a) : r.holding a = r := by
  have hdefinitions : r.definitions = some (r.source.entries a) := by rw [hr, h, Option.map_some]
  rw [holding, ← hdefinitions, ← h]

/-- What a repository answers from: what it has kept, or what comes of the file now. -/
def contents (r : Repository α β) (env : Environment) (d : Disk) : Lookup α :=
  match r.aside with
  | some a => pure a
  | none => r.source.onDisk (env.definitions r.directory) d

theorem ensureLoaded_eq (hr : r.Matched) :
    r.ensureLoaded env d = r.contents env d >>= fun a => pure (r.source.entries a, r.holding a) := by
  rw [ensureLoaded, contents]
  cases h : r.aside with
  | none =>
    have hdefinitions : r.definitions = none := by rw [hr, h, Option.map_none]
    rw [hdefinitions, ← Source.load_eq_onDisk]
    rfl
  | some a =>
    have hdefinitions : r.definitions = some (r.source.entries a) := by rw [hr, h, Option.map_some]
    rw [hdefinitions, pure_bind, holding_of_aside hr h]

/-- The reply of a repository to a question. -/
def reply (r : Repository α β) (env : Environment) (d : Disk) : (q : Question) → Lookup (q.Answer α β)
  | .whole => r.whole env d
  | .entries => r.entries env d
  | .all => r.all env d
  | .get id => r.get env d id

theorem reply_eq (hr : r.Matched) (q : Question) :
    r.reply env d q = r.contents env d >>= fun a => .ofExcept (r.source.answer a q) := by
  have hentries : r.entries env d = r.contents env d >>= fun a => pure (r.source.entries a) := by
    rw [entries, ensureLoaded_eq hr, map_bind]
    rfl
  cases q with
  | whole =>
    rw [reply, whole, ensureLoaded_eq hr, bind_assoc]
    refine congrArg (r.contents env d >>= ·) (funext fun a => ?_)
    rw [pure_bind]
    rfl
  | entries => exact hentries
  | all =>
    rw [reply, all, hentries, map_bind]
    rfl
  | get id =>
    rw [reply, get, hentries, bind_assoc]
    refine congrArg (r.contents env d >>= ·) (funext fun a => ?_)
    rw [pure_bind, Source.answer]
    cases Assoc.get? (r.source.entries a) id <;> rfl

theorem asked_eq (hr : r.Matched) : r.asked env d = ((r.contents env d).result.toOption.map r.holding).getD r := by
  rw [asked, ensureLoaded_eq hr, Attempt.result_bind]
  cases (r.contents env d).result <;> rfl

theorem asked_of_aside {a : α} (hr : r.Matched) (h : r.aside = some a) : r.asked env d = r := by
  rw [asked_eq hr, contents, h]
  exact holding_of_aside hr h

end Repository

/-! ## Questions while files change -/

/-- What happens while a repository is in use: the disk becomes another one, by any writing or removing of files, or a
question is asked. -/
inductive Occurrence where
  | change (d : Disk)
  | ask (q : Question)

namespace Occurrence

def diskAfter (d : Disk) : List Occurrence → Disk
  | [] => d
  | change d :: rest => diskAfter d rest
  | ask _ :: rest => diskAfter d rest

/-- The disks as they were at each question. -/
def disksAsked (d : Disk) : List Occurrence → List Disk
  | [] => []
  | change d :: rest => disksAsked d rest
  | ask _ :: rest => d :: disksAsked d rest

theorem diskAfter_append (d : Disk) (occurrences later : List Occurrence) :
    diskAfter d (occurrences ++ later) = diskAfter (diskAfter d occurrences) later := by
  induction occurrences generalizing d with
  | nil => rfl
  | cons occurrence rest ih =>
    cases occurrence with
    | change d => exact ih d
    | ask q => exact ih d

end Occurrence

open Occurrence

namespace Repository

variable {α β : Type} {r : Repository α β} {env : Environment} {d : Disk}

def after (r : Repository α β) (env : Environment) (d : Disk) : List Occurrence → Repository α β
  | [] => r
  | .change d :: rest => r.after env d rest
  | .ask _ :: rest => (r.asked env d).after env d rest

theorem after_append (r : Repository α β) (env : Environment) (d : Disk) (occurrences later : List Occurrence) :
    r.after env d (occurrences ++ later) =
      (r.after env d occurrences).after env (diskAfter d occurrences) later := by
  induction occurrences generalizing r d with
  | nil => rfl
  | cons occurrence rest ih =>
    cases occurrence with
    | change d => exact ih r d
    | ask q => exact ih (r.asked env d) d

theorem after_of_aside {a : α} (hr : r.Matched) (h : r.aside = some a) (d : Disk) (occurrences : List Occurrence) :
    r.after env d occurrences = r := by
  induction occurrences generalizing d with
  | nil => rfl
  | cons occurrence rest ih =>
    cases occurrence with
    | change d => exact ih d
    | ask q => rw [after, asked_of_aside hr h, ih]

/-- A repository keeps what was built from the first disk from which it could load when it was asked. -/
theorem after_eq (hr : r.Matched) (h : r.aside = none) (env : Environment) (d : Disk)
    (occurrences : List Occurrence) :
    r.after env d occurrences =
      ((r.source.firstLoad (env.definitions r.directory) (disksAsked d occurrences)).map r.holding).getD r := by
  induction occurrences generalizing d with
  | nil => rfl
  | cons occurrence rest ih =>
    cases occurrence with
    | change d => exact ih d
    | ask q =>
      rw [after, asked_eq hr, contents, h, disksAsked, Source.firstLoad, List.findSome?_cons]
      cases (r.source.onDisk (env.definitions r.directory) d).result with
      | ok a => exact after_of_aside (r.matched_holding a) rfl d rest
      | error fault => exact ih d

end Repository

namespace Source

variable {α β : Type}

/-- A repository over the source that has not been asked yet, and how it replies to a question after what has happened.
As long as no question could be answered from a load it is as new, the question is answered from the file as it is now,
and only a load changes the repository. After a load it replies from that load, now and whatever happens later. -/
def RepliesOnce (s : Source α β) (directory : Option Path) (env : Environment) (d : Disk)
    (occurrences : List Occurrence) (q : Question) : Prop :=
  let place := env.definitions directory
  let new : Repository α β := { source := s, directory }
  let used := new.after env d occurrences
  let now := diskAfter d occurrences
  match s.firstLoad place (disksAsked d occurrences) with
  | none =>
    used = new ∧ used.reply env now q = (s.onDisk place now >>= fun a => .ofExcept (s.answer a q)) ∧
      used.asked env now =
        match (s.onDisk place now).result with
        | .ok a => { new with definitions := some (s.entries a), aside := some a }
        | .error _ => new
  | some a =>
    ∀ later, (new.after env d (occurrences ++ later)).reply env (diskAfter d (occurrences ++ later)) q =
      .ofExcept (s.answer a q)

theorem repliesOnce (s : Source α β) (directory : Option Path) (env : Environment) (d : Disk)
    (occurrences : List Occurrence) (q : Question) : s.RepliesOnce directory env d occurrences q := by
  let new : Repository α β := { source := s, directory }
  have hnew : new.Matched := rfl
  have hused := new.after_eq hnew rfl env d occurrences
  unfold RepliesOnce
  dsimp only
  split
  · rename_i hnone
    have hsame : new.after env d occurrences = new := by
      rw [hused, hnone]
      rfl
    rw [hsame]
    refine ⟨rfl, Repository.reply_eq hnew q, ?_⟩
    rw [Repository.asked_eq hnew]
    change ((s.onDisk (env.definitions directory) (diskAfter d occurrences)).result.toOption.map new.holding).getD new = _
    cases (s.onDisk (env.definitions directory) (diskAfter d occurrences)).result <;> rfl
  · rename_i a hsome
    intro later
    have hkept : new.after env d (occurrences ++ later) = new.holding a := by
      rw [Repository.after_append, hused, hsome]
      exact Repository.after_of_aside (new.matched_holding a) rfl _ later
    rw [hkept, Repository.reply_eq (new.matched_holding a)]
    exact pure_bind a _

end Source

/-! ## The story -/

/-- All replies of the repository of a story come from one graph: the graph itself, its nodes by id, these nodes, and
the node that the graph finds under an id. -/
structure Graph.Replies (g : Graph) (r : Repository Graph Node) (env : Environment) (d : Disk) : Prop where
  whole : (r.reply env d .whole).result = .ok g
  entries : (r.reply env d .entries).result = .ok g.byId
  all : (r.reply env d .all).result = .ok (Assoc.values g.byId)
  get : ∀ id, (r.reply env d (.get id)).result = (g.node? id).elim (.error (.noEntry id)) .ok

namespace Repository

variable {r : Repository Graph Node} {env : Environment} {d : Disk} {g : Graph}

theorem answer_get (g : Graph) (id : String) :
    Source.story.answer g (.get id) = (g.node? id).elim (.error (.noEntry id)) .ok := by
  rw [Source.answer, show Source.story.entries g = g.byId from rfl, Graph.get?_byId]
  cases g.node? id <;> rfl

theorem replies_of_contents (hsource : r.source = .story) (hr : r.Matched)
    (h : (r.contents env d).result = .ok g) : g.Replies r env d := by
  have hreply : ∀ q, (r.reply env d q).result = Source.story.answer g q := by
    intro q
    rw [reply_eq hr, Attempt.result_bind_of_ok h, hsource]
    rfl
  exact ⟨hreply _, hreply _, hreply _, fun id => (hreply _).trans (answer_get g id)⟩

theorem replies_after_asked (hsource : r.source = .story) (hr : r.Matched) (h : (r.contents env d).result = .ok g)
    (other : Disk) (later : List Occurrence) :
    g.Replies ((r.asked env d).after env other later) env (diskAfter other later) := by
  have hasked : r.asked env d = r.holding g := by
    rw [asked_eq hr, h]
    rfl
  rw [hasked, after_of_aside (r.matched_holding g) rfl]
  exact replies_of_contents hsource (r.matched_holding g) rfl

/-- Whatever is written to the disk between the questions, a repository over any source loads its document once: until
then each question is answered from the file as it is at the time, or fails as it does, and from then on every
question is answered from that load. If the repository of a story has no graph to reply with, it fails in the same way
whatever it is asked; if it has, then all its replies come from that graph, and go on to do so from the first question
on. -/
theorem loads_once (directory : Option Path) (env : Environment) (d : Disk)
    (occurrences : List Occurrence) :
    (∀ (α β : Type) (s : Source α β) (q : Question), s.RepliesOnce directory env d occurrences q) ∧
    let new : Repository Graph Node := { source := .story, directory }
    let used := new.after env d occurrences
    let now := diskAfter d occurrences
    match (used.reply env now .whole).result with
    | .error fault => ∀ q, (used.reply env now q).result = .error fault
    | .ok g => g.Replies used env now ∧
      ∀ q later, g.Replies (new.after env d (occurrences ++ .ask q :: later)) env
        (diskAfter d (occurrences ++ .ask q :: later)) := by
  refine ⟨fun α β s q => s.repliesOnce directory env d occurrences q, ?_⟩
  intro new used now
  have hused : used.source = .story ∧ used.Matched := by
    change (new.after env d occurrences).source = _ ∧ (new.after env d occurrences).Matched
    rw [new.after_eq rfl rfl env d occurrences]
    cases new.source.firstLoad (env.definitions new.directory) (disksAsked d occurrences) <;> exact ⟨rfl, rfl⟩
  obtain ⟨hsource, hmatched⟩ := hused
  have hwhole : (used.reply env now .whole).result = (used.contents env now).result := by
    rw [reply_eq hmatched]
    exact congrArg Attempt.result (bind_pure (used.contents env now))
  rw [hwhole]
  -- The contents decide what any question is answered from.
  cases hcontents : (used.contents env now).result with
  | error fault =>
    intro q
    rw [reply_eq hmatched]
    exact Attempt.result_bind_eq_error.mpr (.inl hcontents)
  | ok g =>
    refine ⟨replies_of_contents hsource hmatched hcontents, fun q later => ?_⟩
    rw [after_append, diskAfter_append]
    exact replies_after_asked hsource hmatched hcontents now later

end Repository
end BranchingStory
