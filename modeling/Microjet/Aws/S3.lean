import Mathlib.Logic.Function.Basic
import Microjet.Core.Go

/-!
# Downloads from S3 (`aws/s3.go`)

A goroutine for each request, as many at a time as there are workers, each in
`internalS3DownloadFile` one statement at a time. `π` are the places that paths lead to. What
is outside is part of the events: the name that `CreateTemp` draws, what S3 answers, how much
`io.Copy` has written, when the context is cancelled. `Rename` is one step, `Remove` does not
fail, and the deferred `Close` calls change no file.
-/

namespace Microjet.Aws

open Errorx

/-- `S3DownloadFileRequest` -/
structure S3DownloadFileRequest (π : Type) where
  bucketName : GoString
  objectKey : GoString
  localFilePath : π

/-- Where a goroutine is. -/
inductive At (π : Type) where
  | checking
  | creating
  | fetching (tmp : π)
  | copying (tmp : π) (rest : GoString)
  | closing (tmp : π)
  | replacing (tmp : π)
  | removing (tmp : π) (err : Option Err)
  | returned (err : Option Err)

/-- A call of `S3DownloadFiles`: the goroutines, the errgroup and the files. -/
structure Downloads (π : Type) where
  reqs : List (S3DownloadFileRequest π)
  limit : Nat
  fs : π → Option GoString
  ctxErr : Option Err := none
  firstErr : Option Err := none
  launched : Nat := 0
  workers : Nat → Option (At π) := fun _ => none
  names : List π := []
  /-- The bodies that S3 has answered, by request. -/
  served : List (Nat × GoString) := []
  result : Option (Option Err) := none

/-- A statement of a goroutine, with what the outside answers. -/
inductive Event (π : Type) where
  | launch
  | cancel (err : Err)
  | check (i : Nat)
  | createTemp (i : Nat) (name : Except Err π)
  | getObject (i : Nat) (body : Except Err GoString)
  | copy (i n : Nat)
  | copied (i : Nat) (err : Option Err)
  | close (i : Nat) (err : Option Err)
  | rename (i : Nat) (err : Option Err)
  | remove (i : Nat)
  | wait

/-- The error a failed statement is wrapped in. -/
def failed (message : String) (err : Err) : Err := (newInternalError "aws" message).withInner err

/-- The call begins; without a client it is over. -/
def s3DownloadFiles {π : Type} (client : Bool) (fs : π → Option GoString)
    (reqs : List (S3DownloadFileRequest π)) (maxWorkers : Int) : Downloads π where
  reqs := reqs
  limit := if maxWorkers ≤ 0 then 1 else maxWorkers.toNat
  fs := fs
  result :=
    if client then none else some (some (newInternalError "aws" "s3 client is not configured"))

namespace Downloads

variable {π : Type}

/-- Goroutine `i` goes on. -/
def goto (s : Downloads π) (i : Nat) (a : At π) : Downloads π :=
  { s with workers := Function.update s.workers i (some a) }

/-- A goroutine returns. The first error cancels the context. -/
def finish (s : Downloads π) (i : Nat) (err : Option Err) : Downloads π :=
  { s.goto i (.returned err) with
    ctxErr := s.ctxErr.or (err.map fun _ => .other "context canceled")
    firstErr := s.firstErr.or err }

/-- Goroutine `i` has returned. -/
def done (s : Downloads π) (i : Nat) : Bool :=
  match s.workers i with
  | some (.returned _) => true
  | _ => false

/-- How many goroutines are running. -/
def active (s : Downloads π) : Nat := (List.range s.launched).countP fun i => !s.done i

/-- The files asked for. -/
def targets (s : Downloads π) : List π := s.reqs.map S3DownloadFileRequest.localFilePath

variable [DecidableEq π]

/-- `CreateTemp` may draw the name. -/
def fresh (s : Downloads π) (tmp : π) : Bool :=
  (s.fs tmp).isNone && !s.names.contains tmp && !s.targets.contains tmp

/-- One statement. -/
def step (s : Downloads π) : Event π → Option (Downloads π)
  | .launch =>
    if s.result.isNone && s.launched < s.reqs.length && s.active < s.limit then
      some { s.goto s.launched .checking with launched := s.launched + 1 }
    else none
  | .cancel err => some { s with ctxErr := s.ctxErr.or (some err) }
  | .check i =>
    match s.workers i with
    | some .checking =>
      match s.ctxErr with
      | some err => some (s.finish i (some err))
      | none => some (s.goto i .creating)
    | _ => none
  | .createTemp i name =>
    match s.workers i with
    | some .creating =>
      match name with
      | .error err => some (s.finish i (some (failed "failed to create file" err)))
      | .ok tmp =>
        if s.fresh tmp then
          some { s.goto i (.fetching tmp) with
            fs := Function.update s.fs tmp (some [])
            names := tmp :: s.names }
        else none
    | _ => none
  | .getObject i body =>
    match s.workers i with
    | some (.fetching tmp) =>
      match body with
      | .error err =>
        some (s.goto i (.removing tmp (some (failed "failed to get object from s3" err))))
      | .ok body =>
        some { s.goto i (.copying tmp body) with served := (i, body) :: s.served }
    | _ => none
  | .copy i n =>
    match s.workers i with
    | some (.copying tmp rest) =>
      some { s.goto i (.copying tmp (rest.drop n)) with
        fs := Function.update s.fs tmp ((s.fs tmp).map (· ++ rest.take n)) }
    | _ => none
  | .copied i err =>
    match s.workers i with
    | some (.copying tmp rest) =>
      match err with
      | some err =>
        some (s.goto i (.removing tmp (some (failed "failed to stream object to file" err))))
      | none => if rest.isEmpty then some (s.goto i (.closing tmp)) else none
    | _ => none
  | .close i err =>
    match s.workers i with
    | some (.closing tmp) =>
      match err with
      | some err =>
        some (s.goto i (.removing tmp (some (failed "failed to close downloaded file" err))))
      | none => some (s.goto i (.replacing tmp))
    | _ => none
  | .rename i err =>
    match s.workers i, s.reqs[i]? with
    | some (.replacing tmp), some req =>
      match err with
      | some err =>
        some (s.goto i (.removing tmp
          (some (failed "failed to replace downloaded file" err))))
      | none =>
        some { s.goto i (.removing tmp none) with
          fs := Function.update (Function.update s.fs req.localFilePath (s.fs tmp)) tmp none }
    | _, _ => none
  | .remove i =>
    match s.workers i with
    | some (.removing tmp err) =>
      some { s.finish i err with fs := Function.update s.fs tmp none }
    | _ => none
  | .wait =>
    if s.result.isNone && s.launched = s.reqs.length && (List.range s.launched).all s.done then
      some { s with result := some s.firstErr }
    else none

end Downloads

end Microjet.Aws
