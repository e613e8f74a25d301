import NanoMQ.ByteBuffer
import NanoMQ.SeparatorScan
import NanoMQ.Substitution
import Mathlib.Data.List.Infix

/-!
# Parsing of request URIs

`uri_parse` cuts a request URI at its first `?`. `uri_parse_tree` turns what stands behind
`/api/v4` in the path into nodes, and `uri_param_parse` the query into pairs of a key and a value.
A string is the list of its bytes without the terminator, and every allocation succeeds. The
lengths are natural numbers: the source keeps some in an `int`, which the request line of an HTTP
server fits. A loop that runs out of fuel has no result.
-/

namespace NanoMQ

open ByteBuffer SeparatorScan Substitution

def restUriRoot : Bytes := ascii "/api/v4"

structure Tree where
  node : Bytes
  isEnd : Bool
  deriving DecidableEq

structure Kv where
  key : Bytes
  value : Bytes
  deriving DecidableEq

structure UriContent where
  subCount : ℕ
  subTree : List Tree
  paramsCount : ℕ
  params : List Kv
  deriving DecidableEq

def uriParseTree (path : Bytes) : Option (List Tree × ℕ) :=
  match strstr restUriRoot path with
  | none => some ([], 0)
  | some i => do
    let str := path.drop (i + restUriRoot.length)
    let cut ← scan 47 (fun node => Tree.mk node false) (str.length + 1) ⟨[], 0, str⟩
    if 0 < cut.num then
      if 0 < cut.rest.length then some (cut.pieces ++ [⟨cut.rest, true⟩], cut.num + 1)
      else some (cut.pieces.modify (cut.num - 1) fun sub => { sub with isEnd := true }, cut.num)
    else some (cut.pieces, cut.num)

structure ParamList where
  params : List Kv
  count : ℕ
  deriving DecidableEq

def paramStep (l : ParamList) (kvStr : Bytes) : ParamList :=
  match kvStr.idxOf? 61 with
  | none => l
  | some eq =>
    if eq = 0 ∨ kvStr.drop (eq + 1) = [] then l
    else ⟨l.params ++ [⟨kvStr.take eq, kvStr.drop (eq + 1)⟩], l.count + 1⟩

/-- The parameters of a query; a query without a separator leaves the caller's count as it is. -/
def uriParamParse (path : Bytes) (count : ℕ) : Option ParamList := do
  let cut ← scan 38 (fun kvStr => kvStr) (path.length + 1) ⟨[], 0, path⟩
  if 0 < cut.num ∨ (cut.rest.idxOf? 61).isSome then
    let l := (cut.pieces ++ [cut.rest]).foldl paramStep ⟨[], 0⟩
    if l.count = 0 then some ⟨[], 0⟩ else some l
  else some ⟨[], count⟩

def uriParse (uri : Bytes) : Option UriContent :=
  if uri = restUriRoot ∨ uri = restUriRoot ++ ascii "/" then some ⟨0, [], 0, []⟩
  else
    match uri.idxOf? 63 with
    | some p => do
      let param := uri.drop (p + 1)
      let l ← (if 3 ≤ param.length then uriParamParse param 0 else some ⟨[], 0⟩)
      let (subTree, subCount) ← uriParseTree (uri.take p)
      return ⟨subCount, subTree, l.count, l.params⟩
    | none => do
      let (subTree, subCount) ← uriParseTree uri
      return ⟨subCount, subTree, 0, []⟩

/-- The components of a text between its slashes, without an empty one at the end. -/
def pathComponents (text : Bytes) : List Bytes :=
  if 47 ∈ text then
    if (text.splitOn 47).getLast? = some [] then (text.splitOn 47).dropLast else text.splitOn 47
  else []

def behindRoot (path : Bytes) : Option Bytes :=
  (path.tails.find? restUriRoot.isPrefixOf).map (List.drop restUriRoot.length)

def pathNodes (path : Bytes) : List Bytes := (behindRoot path).elim [] pathComponents

/-- The pair that a piece of a query stands for, if it has a key and a value. -/
def queryPair (piece : Bytes) : Option Kv :=
  if before 61 piece ≠ [] ∧ behind 61 piece ≠ [] then
    some ⟨before 61 piece, behind 61 piece⟩
  else none

def EndsMarked (tree : List Tree) : Prop :=
  ∀ i sub, tree[i]? = some sub → (sub.isEnd = true ↔ i + 1 = tree.length)

structure ParsesTo (uri : Bytes) (ct : UriContent) : Prop where
  nodes : ct.subTree.map Tree.node = pathNodes (before 63 uri)
  ends : EndsMarked ct.subTree
  subCount : ct.subCount = ct.subTree.length
  params : ct.params = ((behind 63 uri).splitOn 38).filterMap queryPair
  paramsCount : ct.paramsCount = ct.params.length

section Tree

def markedNodes (init : List Bytes) (last : Bytes) : List Tree :=
  init.map (fun node => Tree.mk node false) ++ [⟨last, true⟩]

theorem endsMarked_markedNodes (init : List Bytes) (last : Bytes) :
    EndsMarked (markedNodes init last) := by
  intro i sub hsub
  have hlen : (markedNodes init last).length = init.length + 1 := by
    rw [markedNodes, List.length_append, List.length_map, List.length_singleton]
  rw [hlen]
  by_cases hi : i < init.length
  · rw [markedNodes, List.getElem?_append_left (by rwa [List.length_map]), List.getElem?_map,
      List.getElem?_eq_getElem hi] at hsub
    cases hsub
    exact iff_of_false Bool.false_ne_true (by omega)
  · have hlast : i = init.length := by
      have := (List.getElem?_eq_some_iff.mp hsub).1
      omega
    subst hlast
    rw [markedNodes, List.getElem?_append_right (by rw [List.length_map]), List.length_map,
      Nat.sub_self] at hsub
    cases hsub
    exact iff_of_true rfl rfl

theorem map_node_markedNodes (init : List Bytes) (last : Bytes) :
    (markedNodes init last).map Tree.node = init ++ [last] := by
  rw [markedNodes, List.map_append, List.map_map]
  exact congrArg (· ++ [last]) (List.map_id init)

theorem modify_last (init : List Bytes) (last : Bytes) :
    ((init ++ [last]).map fun node => Tree.mk node false).modify init.length
      (fun sub => { sub with isEnd := true }) = markedNodes init last := by
  induction init with
  | nil => rfl
  | cons node init ih => exact congrArg (List.cons _) ih

theorem behindRoot_eq (path : Bytes) :
    behindRoot path =
      (strstr restUriRoot path).map fun i => path.drop (i + restUriRoot.length) := by
  rw [behindRoot, find?_tails_isPrefixOf, Option.map_map]
  refine congrArg (Option.map · _) (funext fun i => ?_)
  exact List.drop_drop

/-- The nodes cut off behind the root, as the three ways out of `uri_parse_tree` leave them. -/
theorem pathComponents_of_splitOn {text last : Bytes} {init : List Bytes}
    (hsplit : text.splitOn 47 = init ++ [last]) (hinit : init = [] ↔ 47 ∉ text) :
    pathComponents text =
      if init = [] then [] else if last = [] then init else init ++ [last] := by
  unfold pathComponents
  rw [hsplit]
  by_cases hnil : init = []
  · rw [if_neg (hinit.mp hnil), if_pos hnil]
  · rw [if_pos (not_not.mp fun h => hnil (hinit.mpr h)), if_neg hnil, List.getLast?_concat,
      List.dropLast_concat]
    simp only [Option.some.injEq]

theorem uriParseTree_spec (path : Bytes) :
    ∃ tree, uriParseTree path = some (tree, tree.length) ∧
      tree.map Tree.node = pathNodes path ∧ EndsMarked tree := by
  unfold uriParseTree pathNodes
  rw [behindRoot_eq]
  cases strstr restUriRoot path with
  | none => exact ⟨[], rfl, rfl, fun i sub h => by cases h⟩
  | some i =>
    obtain ⟨init, last, hsplit, hinit, hscan⟩ := scan_splitOn 47 (fun node => Tree.mk node false)
      ((path.drop (i + restUriRoot.length)).length + 1) ⟨[], 0, path.drop (i + restUriRoot.length)⟩
      (Nat.lt_succ_self _)
    simp only [Option.map_some, Option.elim_some, hscan, pathComponents_of_splitOn hsplit hinit,
      List.nil_append, Nat.zero_add, Option.bind_eq_bind, Option.bind_some]
    rcases List.eq_nil_or_concat init with hnil | ⟨front, node, hfront⟩
    · -- without a slash the nodes are dropped
      subst hnil
      exact ⟨[], rfl, rfl, fun i sub h => by cases h⟩
    · rw [List.concat_eq_append] at hfront
      have hpos : 0 < init.length := by
        rw [hfront, List.length_append, List.length_singleton]
        omega
      rw [if_pos hpos, if_neg (List.length_pos_iff.mp hpos)]
      by_cases hlast : last = []
      · -- the path ends in a slash
        subst hlast
        rw [if_neg (by decide), if_pos rfl, hfront]
        refine ⟨markedNodes front node, ?_, map_node_markedNodes front node,
          endsMarked_markedNodes front node⟩
        rw [List.length_append, List.length_singleton, Nat.add_sub_cancel, modify_last]
        simp [markedNodes]
      · rw [if_pos (List.length_pos_of_ne_nil hlast), if_neg hlast]
        refine ⟨markedNodes init last, ?_, map_node_markedNodes init last,
          endsMarked_markedNodes init last⟩
        simp [markedNodes]

end Tree

section Params

def paramList (params : List Kv) : ParamList := ⟨params, params.length⟩

theorem paramStep_eq (params : List Kv) (piece : Bytes) :
    paramStep (paramList params) piece = paramList (params ++ (queryPair piece).toList) := by
  unfold paramStep queryPair
  cases hidx : piece.idxOf? 61 with
  | none =>
    rw [behind_of_not_mem (List.idxOf?_eq_none_iff.mp hidx), if_neg (fun h => h.2 rfl)]
    rw [Option.toList_none, List.append_nil]
  | some eq =>
    have hempty : piece.take eq = [] ↔ eq = 0 := by
      have hlt := (List.idxOf?_eq_some_iff.mp hidx).1
      rw [List.take_eq_nil_iff, or_iff_left (List.ne_nil_of_length_pos (by omega))]
    rw [before_of_idxOf? hidx, behind_of_idxOf? hidx]
    by_cases hkeep : eq = 0 ∨ piece.drop (eq + 1) = []
    · rw [if_neg (by tauto), Option.toList_none, List.append_nil]
      exact if_pos hkeep
    · rw [if_pos (by tauto)]
      refine (if_neg hkeep).trans ?_
      simp [paramList]

theorem foldl_paramStep (pieces : List Bytes) (params : List Kv) :
    pieces.foldl paramStep (paramList params) =
      paramList (params ++ pieces.filterMap queryPair) := by
  induction pieces generalizing params with
  | nil => rw [List.foldl_nil, List.filterMap_nil, List.append_nil]
  | cons piece pieces ih =>
    rw [List.foldl_cons, paramStep_eq, ih, List.append_assoc]
    cases hpair : queryPair piece with
    | none => rw [List.filterMap_cons_none hpair]; rfl
    | some kv => rw [List.filterMap_cons_some hpair]; rfl

theorem queryPair_of_not_mem {piece : Bytes} (h : 61 ∉ piece) : queryPair piece = none :=
  if_neg fun hkv => hkv.2 (behind_of_not_mem h)

theorem uriParamParse_spec (query : Bytes) :
    uriParamParse query 0 = some (paramList ((query.splitOn 38).filterMap queryPair)) := by
  obtain ⟨init, last, hsplit, -, hscan⟩ := scan_splitOn 38 (fun kvStr : Bytes => kvStr)
    (query.length + 1) ⟨[], 0, query⟩ (Nat.lt_succ_self _)
  have hfold : (init ++ [last]).foldl paramStep ⟨[], 0⟩ =
      paramList ((init ++ [last]).filterMap queryPair) := foldl_paramStep (init ++ [last]) []
  rw [uriParamParse, hscan, hsplit]
  simp only [Option.bind_eq_bind, Option.bind_some, List.nil_append, Nat.zero_add, List.map_id',
    hfold]
  split_ifs with hsome hcount
  · rw [List.eq_nil_of_length_eq_zero hcount]
    rfl
  · rfl
  · -- neither separator occurs, and the only piece has no value
    obtain ⟨hnum, heq⟩ := not_or.mp hsome
    have hmem : 61 ∉ last := by
      apply List.idxOf?_eq_none_iff.mp
      simpa using heq
    rw [List.eq_nil_of_length_eq_zero (Nat.eq_zero_of_not_pos hnum), List.nil_append,
      List.filterMap_cons_none (queryPair_of_not_mem hmem)]
    rfl

/-- A query of less than three bytes has no piece with a key and a value. -/
theorem filterMap_queryPair_short {query : Bytes} (h : query.length < 3) :
    (query.splitOn 38).filterMap queryPair = [] := by
  apply List.filterMap_eq_nil_iff.mpr
  intro piece hpiece
  refine if_neg fun hkv => ?_
  have hle := length_le_of_mem_splitOn hpiece
  have hlt := length_before_add_behind_lt hkv.2
  have hkey := List.length_pos_of_ne_nil hkv.1
  have hvalue := List.length_pos_of_ne_nil hkv.2
  omega

end Params

/-- Every URI but the root itself is parsed to the nodes of its path and the pairs of its query. -/
theorem uriParse_parsesTo (uri : Bytes) (hroot : uri ≠ restUriRoot)
    (hslash : uri ≠ restUriRoot ++ ascii "/") :
    ∃ ct, uriParse uri = some ct ∧ ParsesTo uri ct := by
  rw [uriParse, if_neg (not_or.mpr ⟨hroot, hslash⟩)]
  cases hidx : uri.idxOf? 63 with
  | none =>
    have hmem := List.idxOf?_eq_none_iff.mp hidx
    obtain ⟨tree, htree, hnodes, hends⟩ := uriParseTree_spec uri
    simp only [htree, Option.bind_eq_bind, Option.bind_some]
    refine ⟨_, rfl, ?_, hends, rfl, ?_, rfl⟩
    · rw [before_of_not_mem hmem]
      exact hnodes
    · rw [behind_of_not_mem hmem]
      rfl
  | some p =>
    obtain ⟨tree, htree, hnodes, hends⟩ := uriParseTree_spec (uri.take p)
    have hparams : (if 3 ≤ (uri.drop (p + 1)).length then uriParamParse (uri.drop (p + 1)) 0
        else some ⟨[], 0⟩) =
          some (paramList (((uri.drop (p + 1)).splitOn 38).filterMap queryPair)) := by
      split_ifs with hlong
      · exact uriParamParse_spec _
      · rw [filterMap_queryPair_short (Nat.lt_of_not_le hlong)]
        rfl
    simp only [hparams, htree, Option.bind_eq_bind, Option.bind_some]
    refine ⟨_, rfl, ?_, hends, rfl, ?_, rfl⟩
    · rw [before_of_idxOf? hidx]
      exact hnodes
    · rw [behind_of_idxOf? hidx]
      rfl

theorem uriParse_parsesTo_clients :
    ∃ ct, uriParse (ascii "/api/v4/clients/?a=b=c&d") = some ct ∧
      ParsesTo (ascii "/api/v4/clients/?a=b=c&d") ct :=
  uriParse_parsesTo _ (by decide) (by decide)

end NanoMQ
