import NanoMQ.Clients
import NanoMQ.KeyedUpdate

/-!
# The clients that a query lists

What `client_info` holds after the loop over the parameters is read through the tests that
`get_client_cb` makes with it: `passes` is the test of one field. A legal parameter replaces the
test of its field by what its text asks for and leaves the others. So after the loop each test is
that of the last parameter for its field.
-/

namespace NanoMQ

open ByteBuffer

namespace ClientField

def passes (info : ClientInfo) (p : ClientPipe) : ClientField → Bool
  | clientId => info.clientId.all (fun v => p.cparam.clientid == some v)
  | username => info.username.all (fun v => p.cparam.username == some v)
  | connState => info.connState.all (fun v => v == connStateText p.status)
  | cleanStart => !info.hasCleanStart || p.cparam.cleanStart == info.cleanStart
  | protoName => info.protoName.all (fun v => p.cparam.proName == some v)
  | protoVer => !info.hasProtoVer || p.cparam.protover == info.protoVer

def setText (info : ClientInfo) (v : Bytes) : ClientField → Option ClientInfo
  | clientId => some { info with clientId := some v }
  | username => some { info with username := some v }
  | connState =>
    if strcaseEq v (ascii "connected") then
      some { info with connState := some (ascii "connected") }
    else if strcaseEq v (ascii "disconnected") then
      some { info with connState := some (ascii "disconnected") }
    else none
  | cleanStart =>
    if strcaseEq v (ascii "true") then some { info with cleanStart := true, hasCleanStart := true }
    else if strcaseEq v (ascii "false") then
      some { info with cleanStart := false, hasCleanStart := true }
    else none
  | protoName => some { info with protoName := some v }
  | protoVer =>
    let scanned := sscanfIntChar v
    if scanned.1 ≠ 1 ∨ scanned.2 < 0 ∨ scanned.2 > 255 ∨ (scanned.2 ≠ ProtoVer.v31.toNat ∧
        scanned.2 ≠ ProtoVer.v311.toNat ∧ scanned.2 ≠ ProtoVer.v5.toNat) then none
    else some { info with protoVer := UInt8.ofInt scanned.2, hasProtoVer := true }

end ClientField

open ClientField

theorem setParam_eq (info : ClientInfo) (param : Kv) :
    setParam info param = (ofKey param.key).bind (setText info param.value) := by
  unfold ofKey
  simp only [apply_ite (fun f => Option.bind f (setText info param.value))]
  rfl

section Fields

variable {info info' : ClientInfo} {v : Bytes}

theorem strcaseEq_congr {a b : Bytes} (h : strcaseEq a b = true) (c : Bytes) :
    strcaseEq a c = strcaseEq b c := by
  rw [strcaseEq, beq_iff_eq] at h
  rw [strcaseEq, strcaseEq, h]

theorem exists_ite_some_iff {a b : Bool} {x y : ClientInfo} :
    (∃ info', (if a then some x else if b then some y else none) = some info') ↔ a ∨ b := by
  cases a <;> cases b <;> simp

theorem version_range_iff (k : ℤ) :
    ¬ (k < 0 ∨ k > 255 ∨ (k ≠ ProtoVer.v31.toNat ∧ k ≠ ProtoVer.v311.toNat ∧
      k ≠ ProtoVer.v5.toNat)) ↔ k = 3 ∨ k = 4 ∨ k = 5 := by
  change ¬ (k < 0 ∨ k > 255 ∨ (k ≠ 3 ∧ k ≠ 4 ∧ k ≠ 5)) ↔ _
  omega

theorem setText_protoVer_of_version {k : ℤ} (hv : versionOf v = some k)
    (hk : k = 3 ∨ k = 4 ∨ k = 5) :
    setText info v protoVer =
      some { info with protoVer := UInt8.ofInt k, hasProtoVer := true } := by
  have hscan : sscanfIntChar v = (1, k) := sscanfIntChar_eq_one_iff.mpr hv
  simp only [setText, hscan]
  exact if_neg (not_or.mpr ⟨fun h => h rfl, (version_range_iff k).mpr hk⟩)

theorem setText_protoVer (h : setText info v protoVer = some info') :
    ∃ k : ℤ, versionOf v = some k ∧ (k = 3 ∨ k = 4 ∨ k = 5) ∧
      info' = { info with protoVer := UInt8.ofInt k, hasProtoVer := true } := by
  simp only [setText] at h
  split_ifs at h with hbad
  obtain ⟨hrc, hrange⟩ := not_or.mp hbad
  have hscan : sscanfIntChar v = (1, (sscanfIntChar v).2) := Prod.ext (not_not.mp hrc) rfl
  exact ⟨_, sscanfIntChar_eq_one_iff.mp hscan, (version_range_iff _).mp hrange,
    (Option.some.inj h).symm⟩

theorem exists_setText_iff (info : ClientInfo) (v : Bytes) (f : ClientField) :
    (∃ info', setText info v f = some info') ↔ f.Legal v := by
  cases f with
  | clientId => exact iff_of_true ⟨_, rfl⟩ trivial
  | username => exact iff_of_true ⟨_, rfl⟩ trivial
  | connState => exact exists_ite_some_iff
  | cleanStart => exact exists_ite_some_iff
  | protoName => exact iff_of_true ⟨_, rfl⟩ trivial
  | protoVer =>
    constructor
    · rintro ⟨info', h⟩
      obtain ⟨k, hv, hk, -⟩ := setText_protoVer h
      rcases hk with rfl | rfl | rfl
      · exact Or.inl hv
      · exact Or.inr (Or.inl hv)
      · exact Or.inr (Or.inr hv)
    · rintro (h | h | h)
      · exact ⟨_, setText_protoVer_of_version h (by decide)⟩
      · exact ⟨_, setText_protoVer_of_version h (by decide)⟩
      · exact ⟨_, setText_protoVer_of_version h (by decide)⟩

theorem beq_ofInt_version {k : ℤ} (hk : k = 3 ∨ k = 4 ∨ k = 5) (ver : UInt8) :
    (ver == UInt8.ofInt k) = (some k == some (ver.toNat : ℤ)) := by
  obtain ⟨m, hm, rfl⟩ : ∃ m : ℕ, m < 256 ∧ k = (m : ℤ) := ⟨k.toNat, by omega, by omega⟩
  rw [Bool.eq_iff_iff, beq_iff_eq, beq_iff_eq, Option.some.injEq, ofInt_natCast,
    ← UInt8.toNat_inj, UInt8.toNat_ofNat', Nat.mod_eq_of_lt hm]
  omega

theorem passes_setText_of_ne {f g : ClientField} (h : setText info v f = some info') (hne : g ≠ f)
    (p : ClientPipe) : g.passes info' p = g.passes info p := by
  cases f with
  | clientId =>
    cases h
    cases g <;> first | exact absurd rfl hne | rfl
  | username =>
    cases h
    cases g <;> first | exact absurd rfl hne | rfl
  | connState =>
    simp only [setText] at h
    split_ifs at h <;> cases h <;> cases g <;> first | exact absurd rfl hne | rfl
  | cleanStart =>
    simp only [setText] at h
    split_ifs at h <;> cases h <;> cases g <;> first | exact absurd rfl hne | rfl
  | protoName =>
    cases h
    cases g <;> first | exact absurd rfl hne | rfl
  | protoVer =>
    obtain ⟨k, -, -, rfl⟩ := setText_protoVer h
    cases g <;> first | exact absurd rfl hne | rfl

/-- After the text the test of its field asks for what the text asks for. -/
theorem passes_setText_self {f : ClientField} (h : setText info v f = some info') (p : ClientPipe) :
    f.passes info' p = f.accepts p v := by
  cases f with
  | clientId =>
    cases h
    rfl
  | username =>
    cases h
    rfl
  | connState =>
    simp only [setText] at h
    split_ifs at h with hc hd <;> cases h
    · rw [accepts, strcaseEq_congr hc]
      cases hs : p.status <;> simp only [passes, hs] <;> decide
    · rw [accepts, strcaseEq_congr hd]
      cases hs : p.status <;> simp only [passes, hs] <;> decide
  | cleanStart =>
    simp only [setText] at h
    split_ifs at h with ht hf <;> cases h
    · rw [accepts, strcaseEq_congr ht]
      cases hs : p.cparam.cleanStart <;> simp only [passes, hs] <;> decide
    · rw [accepts, strcaseEq_congr hf]
      cases hs : p.cparam.cleanStart <;> simp only [passes, hs] <;> decide
  | protoName =>
    cases h
    rfl
  | protoVer =>
    obtain ⟨k, hv, hk, rfl⟩ := setText_protoVer h
    rw [accepts, hv]
    exact beq_ofInt_version hk p.cparam.protover

end Fields

section Params

variable {params : List Kv} {pathId pathUser : Option Bytes}

theorem setParam_eq_none_iff (info : ClientInfo) (param : Kv) :
    setParam info param = none ↔ IllegalParam param := by
  rw [setParam_eq, IllegalParam]
  cases ofKey param.key with
  | none => simp
  | some f =>
    rw [Option.bind_some, Option.eq_none_iff_forall_ne_some]
    have hlegal := exists_setText_iff info param.value f
    simp only [Option.some.injEq, exists_eq_left', reduceCtorEq, false_or, ← hlegal, not_exists]

theorem foldlM_setParam_eq_none_iff (info : ClientInfo) :
    params.foldlM setParam info = none ↔ ∃ param ∈ params, IllegalParam param := by
  induction params generalizing info with
  | nil => exact iff_of_false (fun h => Option.some_ne_none info h) (by simp)
  | cons param params ih =>
    rw [List.foldlM_cons, List.exists_mem_cons_iff, ← setParam_eq_none_iff info param]
    cases hset : setParam info param with
    | none => simp
    | some info' => simp [ih info']

/-- After the loop every test is that of the condition given for its field. -/
theorem passes_foldlM {info : ClientInfo} (f : ClientField)
    (h : params.foldlM setParam ⟨pathId, pathUser, none, false, false, none, false, 0⟩ = some info)
    (p : ClientPipe) : f.passes info p = (f.given params pathId pathUser).all (f.accepts p) := by
  have hstart : f.passes ⟨pathId, pathUser, none, false, false, none, false, 0⟩ p =
      (f.given [] pathId pathUser).all (f.accepts p) := by
    cases f <;> rfl
  refine KeyedUpdate.foldlM_last (P := fun info r => f.passes info p = r.all (f.accepts p))
    (f := fun param => if ofKey param.key = some f then some param.value else none) ?_ ?_ hstart h
  · intro info info' param v hv hstep
    split_ifs at hv with hkey
    cases hv
    rw [setParam_eq, hkey, Option.bind_some] at hstep
    exact passes_setText_self hstep p
  · intro info info' param r hv hstep hshows
    have hkey : ofKey param.key ≠ some f := fun hkey => by
      rw [if_pos hkey] at hv
      cases hv
    rw [setParam_eq] at hstep
    obtain ⟨g, hg, hset⟩ := Option.bind_eq_some_iff.mp hstep
    have hne : f ≠ g := fun heq => hkey (heq ▸ hg)
    rw [passes_setText_of_ne hset hne p]
    exact hshows

end Params

section Scan

def listed (info : ClientInfo) (p : ClientPipe) : Bool :=
  p.cparam.clientid.isSome && fields.all fun f => f.passes info p

def listedElem (p : ClientPipe) : Json := clientElem (p.cparam.clientid.getD []) p

/-- A chain of tests with one way out, from its last test to its first. -/
theorem ite_not_last {α : Type*} (b : Bool) (x y : α) :
    (if (!b) = true then x else y) = if b = true then y else x := by
  cases b <;> rfl

theorem ite_not_ite {α : Type*} (b r : Bool) (x y : α) :
    (if (!b) = true then x else if r = true then y else x) =
      if (b && r) = true then y else x := by
  cases b <;> rfl

theorem any_not {β : Type*} (o : Option β) (f : β → Bool) : o.any (fun v => !f v) = !o.all f := by
  cases o <;> rfl

/-- The callback takes and gives back one reference on each of its ways out. -/
theorem getClientCb_eq (info : ClientInfo) (s : ClientScan) (p : ClientPipe) :
    getClientCb info s p =
      ⟨s.array ++ if listed info p then [listedElem p] else [],
        s.refs ++ [.obtained p.id, .released p.id]⟩ := by
  have hfree : (s.obtain p.id).free p.id =
      ⟨s.array, s.refs ++ [.obtained p.id, .released p.id]⟩ := by
    simp [ClientScan.obtain, ClientScan.free]
  unfold getClientCb listed listedElem
  dsimp only
  cases hcid : p.cparam.clientid with
  | none => simp [hfree]
  | some cid =>
    have hid : info.clientId.any (fun v => v != cid) =
        !clientId.passes info p := by
      rw [passes, hcid]
      cases info.clientId with
      | none => rfl
      | some v => exact congrArg not BEq.comm
    have huser : info.username.any (fun v => p.cparam.username != some v) =
        !username.passes info p := any_not _ _
    have hstate : info.connState.any (fun v => v != connStateText p.status) =
        !connState.passes info p := any_not _ _
    have hstart : (info.hasCleanStart && p.cparam.cleanStart != info.cleanStart) =
        !cleanStart.passes info p := by
      simp [passes, bne]
    have hname : info.protoName.any (fun v => p.cparam.proName != some v) =
        !protoName.passes info p := any_not _ _
    have hver : (info.hasProtoVer && p.cparam.protover != info.protoVer) =
        !protoVer.passes info p := by
      simp [passes, bne]
    have hall : (fields.all fun f => f.passes info p) =
        (clientId.passes info p && (username.passes info p && (connState.passes info p &&
          (cleanStart.passes info p && (protoName.passes info p &&
            protoVer.passes info p))))) := by
      simp only [fields, List.all_cons, List.all_nil, Bool.and_true]
    dsimp only
    rw [hid, huser, hstate, hstart, hname, hver, ite_not_last (protoVer.passes info p),
      ite_not_ite, ite_not_ite, ite_not_ite, ite_not_ite, ite_not_ite, ← hall, Option.isSome_some,
      Bool.true_and]
    split_ifs
    · simp [ClientScan.obtain, ClientScan.free]
    · rw [hfree, List.append_nil]

theorem foldl_getClientCb (info : ClientInfo) (pipes : List ClientPipe) (s : ClientScan) :
    pipes.foldl (getClientCb info) s =
      ⟨s.array ++ (pipes.filter (listed info)).map listedElem,
        s.refs ++ pipes.flatMap fun p => [.obtained p.id, .released p.id]⟩ := by
  induction pipes generalizing s with
  | nil => simp
  | cons p pipes ih =>
    rw [List.foldl_cons, ih, getClientCb_eq]
    by_cases h : listed info p = true
    · simp [h]
    · simp [h]

end Scan

/-- The handler refuses exactly the queries with an illegal parameter. It answers every other with
one object for each pipe that meets the conditions, in the order of the pipes, and gives back each
reference it has taken, once. -/
theorem getClients_lists (params : List Kv) (pathId pathUser : Option Bytes)
    (pipes : List ClientPipe) :
    ((getClients params pathId pathUser (some pipes)).1.status = 400 ↔
      ∃ param ∈ params, IllegalParam param) ∧
    ((∃ param ∈ params, IllegalParam param) →
      (getClients params pathId pathUser (some pipes)).2 = []) ∧
    ((¬ ∃ param ∈ params, IllegalParam param) →
      getClients params pathId pathUser (some pipes) =
        (⟨200, Json.record [("code", .number 0), ("data", .array
            ((pipes.filter (satisfies params pathId pathUser)).map listedElem))]⟩,
          pipes.flatMap fun p => [.obtained p.id, .released p.id])) := by
  rw [← foldlM_setParam_eq_none_iff ⟨pathId, pathUser, none, false, false, none, false, 0⟩]
  unfold getClients
  cases hrun : params.foldlM setParam ⟨pathId, pathUser, none, false, false, none, false, 0⟩ with
  | none => exact ⟨iff_of_true rfl rfl, fun _ => rfl, fun h => absurd rfl h⟩
  | some info =>
    have hlisted : listed info = satisfies params pathId pathUser := by
      funext p
      simp only [listed, satisfies, passes_foldlM _ hrun]
    refine ⟨iff_of_false ?_ (Option.some_ne_none info), ?_, ?_⟩
    · intro h
      exact absurd (show (200 : ℕ) = 400 from h) (by decide)
    · intro h
      cases h
    · intro _
      simp only [Option.getD_some, foldl_getClientCb, hlisted, List.nil_append]

end NanoMQ
