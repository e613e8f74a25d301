import NanoMQ.ConfReadBack

/-!
# Reading a section and writing it back

A section that was read as JSON is written to another configuration, and the fields that were
emitted should then be equal in the two. Three sections always come back; for the others the
condition names what the two sides disagree about.
-/

namespace NanoMQ

open ByteBuffer Json

/-- The configurations that are read: no string is absent, the limits on packets are whole
kilobytes, the parameters of the requests have accepted names, and the credentials are a table. -/
structure ConfSections.Given (c : ConfSections) : Prop where
  url : c.basic.url.isSome
  maxPacketSize : 1024 ∣ c.basic.maxPacketSize.toNat
  clientMaxPacketSize : 1024 ∣ c.basic.clientMaxPacketSize.toNat
  tls : c.tls.Given
  auths : c.auths.Consistent
  authReq : c.authHttp.authReq.Given
  aclReq : c.authHttp.aclReq.Given
  superReq : c.authHttp.superReq.Given
  wsUrl : c.websocket.url.isSome
  wsTlsUrl : c.websocket.tlsUrl.isSome
  ipAddr : c.httpServer.ipAddr.isSome
  username : c.httpServer.username.isSome
  password : c.httpServer.password.isSome
  mountedFilePath : c.sqlite.mountedFilePath.isSome

def ConfTls.sample (password : Bytes) : ConfTls :=
  ⟨true, some [], some password, some [], some [], some [], false, false⟩

def ConfAuthHttpReq.sample : ConfAuthHttpReq where
  url := some (ascii "http://127.0.0.1/auth")
  method := some (ascii "post")
  headers := [⟨some (ascii "accept"), some (ascii "*/*")⟩]
  params := [⟨some (ascii "clientid"), .clientid⟩, ⟨some (ascii "username"), .username⟩]
  tls := ConfTls.sample []

def ConfSections.sample (password : Bytes) : ConfSections where
  basic := ⟨some [], true, true, 0, 0, 0, 0, 1024, 2048, 0, 0, .finite (5 / 4), true, true⟩
  tls := ConfTls.sample password
  auths := emptyAuth
  authHttp := ⟨true, 5, 5, 5, 5, ConfAuthHttpReq.sample, ConfAuthHttpReq.sample,
    ConfAuthHttpReq.sample⟩
  websocket := ⟨true, true, some [], some []⟩
  httpServer := ⟨true, 8081, some [], some [], some [], .basic⟩
  sqlite := ⟨true, 0, 0, 0, some []⟩

theorem ConfTls.sample_given (password : Bytes) : (ConfTls.sample password).Given :=
  ⟨rfl, rfl, rfl, rfl, rfl⟩

theorem ConfAuthHttpReq.sample_given : ConfAuthHttpReq.sample.Given where
  url := rfl
  method := rfl
  headers := by decide
  params := by
    intro p hp
    rcases List.mem_pair.mp hp with rfl | rfl
    · exact ⟨(ascii "clientid", ascii "clientid", .clientid), by decide +kernel, rfl⟩
    · exact ⟨(ascii "username", ascii "username", .username), by decide +kernel, rfl⟩
  tls := ConfTls.sample_given []

theorem ConfSections.sample_given (password : Bytes) : (ConfSections.sample password).Given where
  url := rfl
  maxPacketSize := ⟨1, rfl⟩
  clientMaxPacketSize := ⟨2, rfl⟩
  tls := ConfTls.sample_given password
  auths := emptyAuth_consistent
  authReq := ConfAuthHttpReq.sample_given
  aclReq := ConfAuthHttpReq.sample_given
  superReq := ConfAuthHttpReq.sample_given
  wsUrl := rfl
  wsTlsUrl := rfl
  ipAddr := rfl
  username := rfl
  password := rfl
  mountedFilePath := rfl

/-- Another configuration, whose requests have one header and no parameter. -/
def ConfSections.other : ConfSections :=
  let req : ConfAuthHttpReq := ⟨some [], some (ascii "get"), [⟨some (ascii "x"), some []⟩], [],
    ConfTls.sample []⟩
  { ConfSections.sample (ascii "old") with authHttp := ⟨false, 1, 2, 3, 4, req, req, req⟩ }

end NanoMQ
