import NanoMQ.GuardedRun
import NanoMQ.NftpSpecs

/-!
# Sequences of vector operations

A number of vectors, each from `nftp_vec_alloc`, and any sequence of operations on them. Each
operation should do to the contents of a vector what its name says, or be refused and change
nothing, and no operation should touch a cell outside the array. Which operations do depends on the
state before them: whether the contents go around the end of the array, and whether the vector is
empty or full.
-/

namespace NanoMQ

open GuardedRun

inductive VecOp (α : Type*)
  | push (entry : Option α) (flag : Int32)
  | append (entry : Option α)
  | pop (flag : Int32)
  | insert (entry : Option α) (pos : Int32)
  | delete (pos : Int32)
  | get (idx : Int32)
  | getidx (entry : Option α)

/-- An operation on one of the vectors, or `nftp_vec_cat` of the second to the first. -/
inductive PoolOp (ι α : Type*)
  | on (i : ι) (op : VecOp α)
  | cat (d s : ι)

section Run

variable {ι α : Type*} [DecidableEq ι] [DecidableEq α]

def vecStep (v : NftpVec α) : VecOp α → Option (NftpVec α)
  | .push entry flag => (nftpVecPush v entry flag).map Prod.snd
  | .append entry => (nftpVecAppend v entry).map Prod.snd
  | .pop flag => (nftpVecPop v flag).map (fun r => r.2.2)
  | .insert entry pos => (nftpVecInsert v entry pos).map Prod.snd
  | .delete pos => (nftpVecDelete v pos).map (fun r => r.2.2)
  | .get idx => (nftpVecGet v idx).map (fun _ => v)
  | .getidx entry => (nftpVecGetidx v entry).map (fun _ => v)

/-- Appending a vector to itself, it would be locked twice: the call does not return. -/
def CatBlocks (p : ι → NftpVec α) (d s : ι) : Prop :=
  d = s ∧ (p d).low + (p d).len + (p s).len ≤ (p d).cap

instance (p : ι → NftpVec α) (d s : ι) : Decidable (CatBlocks p d s) :=
  inferInstanceAs (Decidable (_ ∧ _))

def poolStep (p : ι → NftpVec α) : PoolOp ι α → Option (ι → NftpVec α)
  | .on i op => (vecStep (p i) op).map (Function.update p i)
  | .cat d s =>
      if CatBlocks p d s then none
      else (nftpVecCat (p d) (p s)).map (fun r => Function.update p d r.2)

def InRange (pos : Int32) (n : ℕ) : Prop := 0 ≤ pos.toInt ∧ pos.toInt < n

/-- The operation stays inside the array and does to the contents what it should. -/
def VecOp.Right (v : NftpVec α) : VecOp α → Prop
  | .push entry flag =>
      ∃ rc v', nftpVecPush v entry flag = some (rc, v') ∧
        (rc = .ok ∧ flag = nftpHead ∧ v'.contents = entry :: v.contents ∨
          rc = .ok ∧ flag = nftpTail ∧ v'.contents = v.contents ++ [entry] ∨
          rc ≠ .ok ∧ v'.contents = v.contents)
  | .append entry =>
      ∃ rc v', nftpVecAppend v entry = some (rc, v') ∧
        (rc = .ok ∧ v'.contents = v.contents ++ [entry] ∨ rc ≠ .ok ∧ v'.contents = v.contents)
  | .pop flag =>
      ∃ rc out v', nftpVecPop v flag = some (rc, out, v') ∧
        (rc = .ok ∧ flag = nftpHead ∧ (∃ x, out = some x ∧ v.contents = x :: v'.contents) ∨
          rc = .ok ∧ flag = nftpTail ∧ (∃ x, out = some x ∧ v.contents = v'.contents ++ [x]) ∨
          rc ≠ .ok ∧ v'.contents = v.contents ∧
            (v.contents = [] ∨ flag ≠ nftpHead ∧ flag ≠ nftpTail))
  | .insert entry pos =>
      ∃ rc v', nftpVecInsert v entry pos = some (rc, v') ∧
        (rc = .ok ∧ (0 ≤ pos.toInt ∧ pos.toInt ≤ v.contents.length) ∧
            v'.contents = v.contents.take pos.toInt.toNat ++
              entry :: v.contents.drop pos.toInt.toNat ∨
          rc = .ok ∧ ¬ (0 ≤ pos.toInt ∧ pos.toInt ≤ v.contents.length) ∧
            v'.contents = v.contents ++ [entry] ∨
          rc ≠ .ok ∧ v'.contents = v.contents)
  | .delete pos =>
      ∃ rc out v', nftpVecDelete v pos = some (rc, out, v') ∧
        (rc = .ok ∧ InRange pos v.contents.length ∧
            (∃ x, out = some x ∧ v.contents[pos.toInt.toNat]? = some x) ∧
            v'.contents = v.contents.eraseIdx pos.toInt.toNat ∨
          rc ≠ .ok ∧ ¬ InRange pos v.contents.length ∧ v'.contents = v.contents)
  | .get idx =>
      ∃ rc out, nftpVecGet v idx = some (rc, out) ∧
        (rc = .ok ∧ InRange idx v.contents.length ∧
            (∃ x, out = some x ∧ v.contents[idx.toInt.toNat]? = some x) ∨
          rc ≠ .ok ∧ ¬ InRange idx v.contents.length)
  | .getidx entry =>
      ∃ rc out, nftpVecGetidx v entry = some (rc, out) ∧
        (rc = .ok ∧ (∃ k, out = some k ∧ v.contents.idxOf? entry = some k) ∨
          rc ≠ .ok ∧ entry ∉ v.contents)

def PoolOp.Right (p : ι → NftpVec α) : PoolOp ι α → Prop
  | .on i op => op.Right (p i)
  | .cat d s =>
      CatBlocks p d s ∨
        ∃ rc v', nftpVecCat (p d) (p s) = some (rc, v') ∧
          (rc = .ok ∧ v'.contents = (p d).contents ++ (p s).contents ∨
            rc ≠ .ok ∧ v'.contents = (p d).contents)

/-- The states in which an operation does: a push to the head finds room or no cell before the
first, a deletion finds an entry, and no cell is used that is behind the end of the array. -/
def VecOp.Fits (v : NftpVec α) : VecOp α → Prop
  | .push _ flag => flag = nftpHead → v.low = 0 ∨ v.len < v.cap
  | .append _ => True
  | .pop flag => flag = nftpTail → v.low + v.len ≤ v.cap
  | .insert _ _ => True
  | .delete pos => pos.toInt < 0 ∨ v.len ≠ 0 ∧ (v.len ≤ pos.toInt ∨ v.low + v.len ≤ v.cap)
  | .get idx => InRange idx v.len → v.low + idx.toInt < v.cap
  | .getidx entry => v.low + v.len ≤ v.cap ∨ entry ∈ v.contents.take (v.cap - v.low)

def PoolOp.Fits (p : ι → NftpVec α) : PoolOp ι α → Prop
  | .on i op => op.Fits (p i)
  | .cat d s =>
      d = s ∨ (p d).cap < (p d).low + (p d).len + (p s).len ∨ (p s).low + (p s).len ≤ (p s).cap

end Run

end NanoMQ
