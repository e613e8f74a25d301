import NanoMQ.ConfSections

/-!
# What a setter makes of what the getter emitted

For every pair of functions, the configuration that results when the JSON of one configuration is
written to another. The names the two sides use differ in a few places: the password of a TLS key is
emitted as `key_password` and looked for as `keypass`, the user names as `login` and `username`, the
address of the HTTP server and the TLS settings of an authentication request are emitted and never
looked for, and the parameter `subject` is stored as `protocol`.
-/

namespace NanoMQ

open ByteBuffer Json

structure ConfTls.Given (tls : ConfTls) : Prop where
  url : tls.url.isSome
  keyPassword : tls.keyPassword.isSome
  key : tls.key.isSome
  cert : tls.cert.isSome
  ca : tls.ca.isSome

structure ConfAuthHttpReq.Given (req : ConfAuthHttpReq) : Prop where
  url : req.url.isSome
  method : req.method.isSome
  headers : ∀ h ∈ req.headers, h.key.isSome ∧ h.value.isSome
  params : ∀ p ∈ req.params, ∃ entry ∈ httpParamNames, p.name = some entry.1
  tls : req.tls.Given

@[simp] theorem updated_some {α : Type} (v old : α) : updated (some v) old = v := rfl

theorem truncated_natCast (n : ℕ) : truncated n = n := truncated_intCast n

theorem toU64_toNat (x : UInt64) : toU64 x.toNat = x := by
  rw [toU64, truncated_natCast, Int.toNat_natCast, UInt64.ofNat_toNat]

theorem credentials_login (pair : Bytes × Bytes) : credentials (loginEntry pair) = none := by
  have hd : DistinctNames [("username", (.null : Json ℚ)), ("login", .string pair.1),
      ("password", .string pair.2)] := by
    simp only [DistinctNames, List.map_cons, List.map_nil]
    decide +kernel
  rw [credentials, getStringValue, loginEntry, getObjectItem_record_none hd]

/-- None of the entries that are emitted is usable. -/
theorem filterMap_login (pairs : List (Bytes × Bytes)) :
    (Json.array (pairs.map loginEntry)).children.filterMap credentials = [] := by
  rw [children, List.filterMap_map, List.filterMap_eq_nil_iff]
  intro pair _
  exact credentials_login pair

theorem authHttpReqFields_distinct (req : ConfAuthHttpReq) :
    DistinctNames (authHttpReqFields req) := by
  simp only [DistinctNames, authHttpReqFields, List.map_cons, List.map_nil]
  decide +kernel

theorem setAuthHttpReq_emitted (req req' : ConfAuthHttpReq) :
    setAuthHttpReq (getAuthHttpReqConfig req) req' =
      (setHeaders (req.headers.filterMap headerMember) req'.headers).bind fun headers =>
        (setParams (req.params.filterMap fun p => p.name.map Json.string)).bind fun params =>
          some ⟨updatedString req.url req'.url, updatedString req.method req'.method, headers,
            params, req'.tls⟩ := by
  have hd := authHttpReqFields_distinct req
  have hheaders : (getAuthHttpReqConfig req).getObjectItem (ascii "headers") =
      some (.object (req.headers.filterMap headerMember)) := @getObjectItem_record ℚ _ hd 2 _ _ rfl
  have hparams : (getAuthHttpReqConfig req).getObjectItem (ascii "params") =
      some (.array (req.params.filterMap (fun p => p.name.map Json.string))) :=
    @getObjectItem_record ℚ _ hd 3 _ _ rfl
  have hurl : (getAuthHttpReqConfig req).getStringValue (ascii "url") = req.url :=
    getStringValue_record hd 0 rfl
  have hmethod : (getAuthHttpReqConfig req).getStringValue (ascii "method") = req.method :=
    getStringValue_record hd 1 rfl
  simp only [setAuthHttpReq, hheaders, hparams, hurl, hmethod, children]
  rfl

theorem setAuthHttpConfig_emitted (auth auth' : ConfAuthHttp) :
    setAuthHttpConfig (getAuthHttpConfig auth) auth' =
      (setAuthHttpReq (getAuthHttpReqConfig auth.authReq) auth'.authReq).bind fun authReq =>
        (setAuthHttpReq (getAuthHttpReqConfig auth.aclReq) auth'.aclReq).bind fun aclReq =>
          (setAuthHttpReq (getAuthHttpReqConfig auth.superReq) auth'.superReq).bind fun superReq =>
            some ⟨auth.enable, auth.timeout, auth.connectTimeout, auth.poolSize, auth.cacheTtl,
              authReq, aclReq, superReq⟩ := by
  have hd : DistinctNames (authHttpFields auth) := by
    simp only [DistinctNames, authHttpFields, List.map_cons, List.map_nil]
    decide +kernel
  have hauthItem : (getAuthHttpConfig auth).getObjectItem (ascii "auth_req") =
      some (getAuthHttpReqConfig auth.authReq) := @getObjectItem_record ℚ _ hd 5 _ _ rfl
  have haclItem : (getAuthHttpConfig auth).getObjectItem (ascii "acl_req") =
      some (getAuthHttpReqConfig auth.aclReq) := @getObjectItem_record ℚ _ hd 6 _ _ rfl
  have hsuperItem : (getAuthHttpConfig auth).getObjectItem (ascii "super_req") =
      some (getAuthHttpReqConfig auth.superReq) := @getObjectItem_record ℚ _ hd 7 _ _ rfl
  simp only [setAuthHttpConfig, setReqMember, hauthItem, haclItem, hsuperItem]
  simp only [getAuthHttpConfig, getBoolValue_record hd 0 rfl, getNumberValue_record hd 1 rfl,
    getNumberValue_record hd 2 rfl, getNumberValue_record hd 3 rfl,
    getNumberValue_record hd 4 rfl, Option.map_some, updated_some, toU64_toNat]
  rfl

end NanoMQ
