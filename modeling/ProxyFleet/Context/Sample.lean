import ProxyFleet.Context
import ProxyFleet.Inbound

/-!
# The sample context

Fixed data that templates are previewed and checked with.
-/

namespace ProxyFleet

namespace Context

/-- The identities of the two sample clients. -/
def sampleUuids : String × String :=
  ("00000000-0000-0000-0000-000000000001", "00000000-0000-0000-0000-000000000002")

/-- A listener with Reality. -/
def sampleReality : Inbound where
  type := "vless"
  tag := "vless-in"
  listen := "::"
  listenPort := 443
  transport := none
  tls := some { Tls.off with
    enabled := true
    serverName := "example.com"
    reality := some { Reality.off with
      enabled := true
      shortIds := ["0123456789abcdef"]
      serverName := "example.com"
      privateKey := "sample-private-key"
      handshake := some ⟨"www.google.com", 443⟩ } }
  multiplex := none
  users := [⟨sampleUuids.1, "user@example.com", "", "", ""⟩]
  options := []

/-- A shadowsocks listener. -/
def sampleShadowsocks : Inbound where
  type := "shadowsocks"
  tag := "ss-in"
  listen := "::"
  listenPort := 8388
  transport := none
  tls := none
  multiplex := none
  users := [⟨"", "user@example.com", "password123", "", "2022-blake3-aes-128-gcm"⟩]
  options := [("method", .str "2022-blake3-aes-128-gcm")]

/-- A listener of the sample: its clients stand before its security. -/
def sampleRecord (i : Inbound) : Value :=
  match i.toValue with
  | .obj fs =>
    let users : Fields := [("users", Fields.get fs "users")]
    .obj ((fs.take 4) ++ users ++ Fields.erase (fs.drop 4) "users")
  | v => v

/-- A client of the sample. -/
def sampleUser (id uuid email : String) : Value :=
  .obj [("id", .str id), ("uuid", .str uuid), ("email", .str email), ("enabled", .bool true)]

/-- The sample context. -/
def sample : Fields :=
  make [sampleRecord sampleReality, sampleRecord sampleShadowsocks]
    [sampleUser "1" sampleUuids.1 "user@example.com",
      sampleUser "2" sampleUuids.2 "user2@example.com"]
    (.obj [("id", .str "sample-agent"), ("name", .str "sample-agent"),
      ("coreType", .str "sing-box"), ("coreVersion", .str "1.10.0"),
      ("capabilities", .texts ["reality", "multiplex", "v2ray_api"]),
      ("buildTags", .texts ["with_v2ray_api", "with_quic"])])

end Context

end ProxyFleet
