import Mathlib.Logic.Function.Basic
import Tfws.Data.Interference
import Tfws.Provider.Diagnostic

/-! The system the OpenSSL bridge runs on: files that other processes may change
at any time, a scratch directory that is the bridge's own, and the OpenSSL tool. -/
namespace Tfws.Provider

open Interference

/-- `Path::join`: an absolute name replaces the base, and another one goes behind a
slash. -/
def join (base name : Path) : Path :=
  if isAbsolute name then name
  else if base = [] ∨ base.getLast? = some 0x2F then base ++ name
  else base ++ 0x2F :: name

/-- `Path::components`, each as its text. Repeated slashes and single dots leave no
component. -/
def components (path : Path) : List Bytes :=
  let names := Whitespace.split (· = 0x2F) path
  let plain := names.filter (· ≠ [0x2E])
  if isAbsolute path then [0x2F] :: plain
  else if names.head? = some [0x2E] then [0x2E] :: plain
  else plain

/-- `Path::starts_with`, by components and not by octets: `/keys-old` does not start
with `/keys`. -/
def startsWith (path base : Path) : Bool := (components base).isPrefixOf (components path)

/-- The runs of the OpenSSL tool, with the files that they are given. The bridge
starts no other commands. -/
inductive Pkeyutl where
  /-- `pkeyutl -sign -inkey KEY -rawin -in MESSAGE -out SIGNATURE` -/
  | sign (inkey input out : Path)
  /-- `pkeyutl -verify -pubin -inkey KEY -rawin -in MESSAGE -sigfile SIGNATURE` -/
  | verify (inkey input sigfile : Path)

/-- How `fs::create_dir` ends; a name that is taken is told apart from other failures,
because the bridge then tries another. -/
inductive Created where
  | made
  | alreadyExists
  | failed

/-- The process, the clock and the sequence number a scratch directory is named by.
Nothing is assumed of them. -/
structure Stamp where
  process : Nat
  timestamp : Nat
  sequence : Nat

/-- What the bridge asks of the system. Each call is one step, before which others may
act. -/
inductive SystemCall where
  | canonicalize (path : Path)
  | read (path : Path)
  | write (path : Path) (contents : Bytes)
  | createDirAll (path : Path)
  | stamp
  | createDir (path : Path)
  | setPrivatePermissions (path : Path)
  | removeDirAll (path : Path)
  | output (program : Path) (command : Pkeyutl)

/-- The answers; of an `io::Error` nothing is kept. -/
abbrev SystemCall.Answer : SystemCall → Type
  | canonicalize _ => Option Path
  | read _ => Option Bytes
  | write _ _ => Bool
  | createDirAll _ => Bool
  | stamp => Stamp
  | createDir _ => Created
  | setPrivatePermissions _ => Bool
  | removeDirAll _ => Unit
  | output _ _ => Option Output

/-- The files by their paths, where `fs::canonicalize` leads, and the scratch
directory in use. A path has its own contents; links are seen only by
`canonicalize`. -/
structure World where
  contents : Path → Option Bytes
  canonical : Path → Option Path
  scratch : Option Path

/-- A path of a file in the scratch directory, under a name without a slash. -/
def World.isScratch (world : World) (path : Path) : Prop :=
  ∃ directory name, world.scratch = some directory ∧ 0x2F ∉ name ∧ path = join directory name

/-- The world with other contents at a place, or with none, and everything else as it
was. -/
def World.put (world : World) (path : Path) (contents : Option Bytes) : World :=
  { world with contents := Function.update world.contents path contents }

/-- Other processes may change everything but the scratch directory: the key
directories too, at any time. The directory is private to the process once it is
made. -/
structure Disturbs (world disturbed : World) : Prop where
  scratch : disturbed.scratch = world.scratch
  contents : ∀ path, world.isScratch path → disturbed.contents path = world.contents path

/-- What is not the bridge: the hash and the tool. Nothing is assumed of either, but
that a run of the tool comes to an end; signing need not succeed. -/
structure Platform where
  sha256 : Bytes → Bytes
  /-- OpenSSL accepts the signature of the message under the key. -/
  accepts : (key message signature : Bytes) → Prop
  /-- OpenSSL signs with what is at the key's path and at the message's. -/
  signs : Option Bytes → Option Bytes → Output → Option Bytes → Prop
  signs_ends : ∀ privateKey message, ∃ result written, signs privateKey message result written

/-- The tool accepts what is at the paths at the moment of the call, and none of the
files is missing. -/
def Platform.acceptsFiles (platform : Platform) (world : World) (inkey input sigfile : Path) : Prop :=
  ∃ key message signature, world.contents inkey = some key ∧ world.contents input = some message ∧
    world.contents sigfile = some signature ∧ platform.accepts key message signature

/-- What a call may answer, and what it leaves behind. A failed write leaves the file
in any state. -/
def Platform.step (platform : Platform) (mayFail : Prop) (world : World) :
    (request : SystemCall) → request.Answer → World → Prop
  | .canonicalize path, answer, after =>
      after = world ∧ (answer = world.canonical path ∨ mayFail ∧ answer = none)
  | .read path, answer, after =>
      after = world ∧ (answer = world.contents path ∨ mayFail ∧ answer = none)
  | .write path contents, answer, after =>
      (answer = true ∧ after = world.put path (some contents)) ∨
        (mayFail ∧ answer = false ∧ ∃ part, after = world.put path part)
  | .createDirAll _, answer, after => after = world ∧ (answer = true ∨ mayFail)
  | .stamp, _, after => after = world
  | .createDir path, answer, after =>
      (answer = .made ∧ after = { world with scratch := some path }) ∨
        (mayFail ∧ answer ≠ .made ∧ after = world)
  | .setPrivatePermissions _, answer, after => after = world ∧ (answer = true ∨ mayFail)
  | .removeDirAll _, _, after => after = { world with scratch := none }
  | .output _ (.sign inkey input out), answer, after =>
      (mayFail ∧ answer = none ∧ after = world) ∨
        ∃ output signature, answer = some output ∧ after = world.put out signature ∧
          platform.signs (world.contents inkey) (world.contents input) output signature
  | .output _ (.verify inkey input sigfile), answer, after =>
      after = world ∧ ((mayFail ∧ answer = none) ∨
        ∃ output, answer = some output ∧
          (output.success = true ↔ platform.acceptsFiles world inkey input sigfile))

/-- The system, with others around that change the world before each call as they are
allowed to. -/
def Platform.machine (platform : Platform) (mayFail : Prop) (disturbs : World → World → Prop) :
    Machine World SystemCall SystemCall.Answer := ⟨disturbs, platform.step mayFail⟩

/-- Others may do nothing, so that an undisturbed run is a run. -/
theorem Disturbs.refl (world : World) : Disturbs world world := ⟨rfl, fun _ _ => rfl⟩

/-- Every call has an answer, also where none fails; statements about all runs are not
empty for want of one. -/
theorem Platform.step_total (platform : Platform) (mayFail : Prop) (world : World)
    (request : SystemCall) : ∃ answer after, platform.step mayFail world request answer after := by
  cases request with
  | canonicalize path => exact ⟨_, world, rfl, Or.inl rfl⟩
  | read path => exact ⟨_, world, rfl, Or.inl rfl⟩
  | write path contents => exact ⟨true, _, Or.inl ⟨rfl, rfl⟩⟩
  | createDirAll path => exact ⟨true, world, rfl, Or.inl rfl⟩
  | stamp => exact ⟨⟨0, 0, 0⟩, world, rfl⟩
  | createDir path => exact ⟨.made, _, Or.inl ⟨rfl, rfl⟩⟩
  | setPrivatePermissions path => exact ⟨true, world, rfl, Or.inl rfl⟩
  | removeDirAll path => exact ⟨(), _, rfl⟩
  | output program command =>
      cases command with
      | sign inkey input out =>
          obtain ⟨result, written, hSigns⟩ :=
            platform.signs_ends (world.contents inkey) (world.contents input)
          exact ⟨some result, _, Or.inr ⟨result, written, rfl, rfl, hSigns⟩⟩
      | verify inkey input sigfile =>
          by_cases hAccepts : platform.acceptsFiles world inkey input sigfile
          · exact ⟨some ⟨some 0, [], []⟩, world, rfl, Or.inr ⟨_, rfl, iff_of_true rfl hAccepts⟩⟩
          · exact ⟨some ⟨some 1, [], []⟩, world, rfl,
              Or.inr ⟨_, rfl, iff_of_false (by decide) hAccepts⟩⟩

variable {world disturbed : World} {scratch name other : Bytes}

theorem isAbsolute_of_plain (h : 0x2F ∉ name) : isAbsolute name = false := by
  rw [isAbsolute, decide_eq_false_iff_not]
  intro hHead
  exact h (List.mem_of_mem_head? hHead)

/-- Different plain names are different files of a directory, so writing one leaves
the others alone. -/
theorem join_injective (hName : 0x2F ∉ name) (hOther : 0x2F ∉ other)
    (h : join scratch name = join scratch other) : name = other := by
  rw [join, join, isAbsolute_of_plain hName, isAbsolute_of_plain hOther] at h
  simp only [Bool.false_eq_true, if_false] at h
  split_ifs at h
  · exact List.append_cancel_left h
  · exact (List.cons.inj (List.append_cancel_left h)).2

/-- What the scratch directory has under a name. The three files of the bridge are
followed by this from the write to the tool. -/
structure Stored (scratch name : Bytes) (contents : Option Bytes) (world : World) : Prop where
  own : world.scratch = some scratch
  plain : 0x2F ∉ name
  stored : world.contents (join scratch name) = contents

variable {contents : Option Bytes}

/-- Nobody else changes a file of the scratch directory: what was stored stays,
whatever happens between two calls. -/
theorem Stored.of_disturbs (h : Stored scratch name contents world)
    (hDisturbs : Disturbs world disturbed) : Stored scratch name contents disturbed := by
  refine ⟨hDisturbs.scratch.trans h.own, h.plain, ?_⟩
  rw [hDisturbs.contents _ ⟨scratch, name, h.own, h.plain, rfl⟩, h.stored]

/-- Writing a file leaves the others of the directory as they are. -/
theorem Stored.put_other (part : Option Bytes) (h : Stored scratch name contents world)
    (hOther : 0x2F ∉ other) (hNe : name ≠ other) : Stored scratch name contents (world.put (join scratch other) part) := by
  refine ⟨h.own, h.plain, ?_⟩
  have hPaths : join scratch name ≠ join scratch other :=
    fun hSame => hNe (join_injective h.plain hOther hSame)
  exact (Function.update_of_ne hPaths _ _).trans h.stored

/-- What was written is stored. -/
theorem stored_put (contents : Option Bytes) (hOwn : world.scratch = some scratch) (hName : 0x2F ∉ name) :
    Stored scratch name contents (world.put (join scratch name) contents) :=
  ⟨hOwn, hName, Function.update_self _ _ _⟩

end Tfws.Provider
