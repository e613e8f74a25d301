import NanoMQ.ConfReadBack

/-!
# Writing `auth_http` as it stands

When the section `auth_http` is written as it is emitted from one configuration to another, it
changes nothing exactly if the two agree in everything that the setter looks at.
-/

namespace NanoMQ

open ByteBuffer Json

/-- A request of `auth_http` is given as it stands: strings are absent or equal, the headers come
first among those of the configuration, and the accepted parameters are all there are. -/
structure ReqIdle (a b : ConfAuthHttpReq) : Prop where
  url : a.url = none ∨ a.url = b.url
  method : a.method = none ∨ a.method = b.method
  headers : a.headers.filter (fun h => h.key.isSome && h.value.isSome) <+: b.headers
  params : (a.params.filterMap ConfHttpParam.name).filterMap httpParam = b.params

structure AuthHttpIdle (a b : ConfAuthHttp) : Prop where
  enable : a.enable = b.enable
  timeout : a.timeout = b.timeout
  connectTimeout : a.connectTimeout = b.connectTimeout
  poolSize : a.poolSize = b.poolSize
  cacheTtl : a.cacheTtl = b.cacheTtl
  authReq : ReqIdle a.authReq b.authReq
  aclReq : ReqIdle a.aclReq b.aclReq
  superReq : ReqIdle a.superReq b.superReq

theorem updatedString_eq_iff (v old : Option Bytes) :
    updatedString v old = old ↔ v = none ∨ v = old := by
  cases v with
  | none => exact iff_of_true rfl (Or.inl rfl)
  | some s => simp [updatedString]

/-- Headers are written over those of the configuration, from the first. -/
theorem setHeaders_eq_self_iff (hs headers : List ConfHttpHeader) :
    setHeaders (hs.filterMap headerMember) headers = some headers ↔
      hs.filter (fun h => h.key.isSome && h.value.isSome) <+: headers := by
  induction hs generalizing headers with
  | nil => exact iff_of_true (by cases headers <;> rfl) List.nil_prefix
  | cons h hs ih =>
    cases hmember : headerMember h with
    | none =>
      have hskip : (h.key.isSome && h.value.isSome) = false := by
        obtain ⟨_ | key, _ | value⟩ := h <;> first | rfl | cases hmember
      rw [List.filterMap_cons_none hmember, List.filter_cons_of_neg (by rw [hskip]; simp), ih]
    | some member =>
      obtain ⟨_ | key, _ | value⟩ := h <;> cases hmember
      have hsome : headerMember ⟨some key, some value⟩ = some (key, .string value) := rfl
      rw [List.filterMap_cons_some hsome, List.filter_cons_of_pos rfl]
      cases headers with
      | nil => exact iff_of_false (fun h => by cases h) (fun h => by simp at h)
      | cons h' headers =>
        rw [setHeaders, List.cons_prefix_cons, ← ih, Option.map_eq_some_iff]
        constructor
        · rintro ⟨rest, hrest, heq⟩
          obtain ⟨hhead, rfl⟩ := List.cons.inj heq
          exact ⟨hhead, hrest⟩
        · rintro ⟨rfl, hrest⟩
          exact ⟨headers, hrest, rfl⟩

theorem setParams_strings (params : List ConfHttpParam) :
    setParams (params.filterMap fun p => p.name.map Json.string) =
      some ((params.filterMap ConfHttpParam.name).filterMap httpParam) := by
  induction params with
  | nil => rfl
  | cons p params ih =>
    cases hname : p.name with
    | none =>
      rw [List.filterMap_cons_none (by rw [hname]; rfl), List.filterMap_cons_none hname, ih]
    | some name =>
      rw [List.filterMap_cons_some (by rw [hname, Option.map_some]),
        List.filterMap_cons_some hname, setParams, ih, Option.map_some]
      cases hparam : httpParam name with
      | none => rw [List.filterMap_cons_none hparam]; rfl
      | some param => rw [List.filterMap_cons_some hparam]; rfl

theorem setAuthHttpReq_eq_self_iff (a b : ConfAuthHttpReq) :
    setAuthHttpReq (getAuthHttpReqConfig a) b = some b ↔ ReqIdle a b := by
  rw [setAuthHttpReq_emitted, setParams_strings]
  constructor
  · intro h
    obtain ⟨headers, hset, hrest⟩ := Option.bind_eq_some_iff.mp h
    have heq := Option.some.inj hrest
    obtain rfl : headers = b.headers := congrArg ConfAuthHttpReq.headers heq
    exact ⟨(updatedString_eq_iff _ _).mp (congrArg ConfAuthHttpReq.url heq),
      (updatedString_eq_iff _ _).mp (congrArg ConfAuthHttpReq.method heq),
      (setHeaders_eq_self_iff _ _).mp hset, congrArg ConfAuthHttpReq.params heq⟩
  · intro h
    rw [(setHeaders_eq_self_iff _ _).mpr h.headers, (updatedString_eq_iff _ _).mpr h.url,
      (updatedString_eq_iff _ _).mpr h.method, h.params]
    rfl

theorem setAuthHttpConfig_eq_self_iff (a b : ConfAuthHttp) :
    setAuthHttpConfig (getAuthHttpConfig a) b = some b ↔ AuthHttpIdle a b := by
  rw [setAuthHttpConfig_emitted]
  constructor
  · intro h
    obtain ⟨authReq, hauth, h⟩ := Option.bind_eq_some_iff.mp h
    obtain ⟨aclReq, hacl, h⟩ := Option.bind_eq_some_iff.mp h
    obtain ⟨superReq, hsuper, h⟩ := Option.bind_eq_some_iff.mp h
    cases h
    exact ⟨rfl, rfl, rfl, rfl, rfl, (setAuthHttpReq_eq_self_iff _ _).mp hauth,
      (setAuthHttpReq_eq_self_iff _ _).mp hacl, (setAuthHttpReq_eq_self_iff _ _).mp hsuper⟩
  · intro h
    rw [(setAuthHttpReq_eq_self_iff _ _).mpr h.authReq,
      (setAuthHttpReq_eq_self_iff _ _).mpr h.aclReq,
      (setAuthHttpReq_eq_self_iff _ _).mpr h.superReq, h.enable, h.timeout, h.connectTimeout,
      h.poolSize, h.cacheTtl]
    rfl

end NanoMQ
