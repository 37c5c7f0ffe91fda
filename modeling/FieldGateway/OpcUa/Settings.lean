import FieldGateway.Fault
import FieldGateway.Schema.FieldSet
import FieldGateway.Text.Duration

namespace FieldGateway.OpcUa

structure Settings where
  securityPolicy : Text
  securityMode : Text
  certFile : Option Text
  keyFile : Option Text
  connectTimeout : Nat
deriving DecidableEq

namespace Settings

def fields : Schema.FieldSet Settings :=
  let text := Schema.Decoder.text .own
  (Schema.FieldSet.done Settings.mk)
    |>.next (.defaulted "securityPolicy" "None" text)
    |>.next (.defaulted "securityMode" "None" text)
    |>.next (.optional "certFile" text)
    |>.next (.optional "keyFile" text)
    |>.next (.defaulted "connectTimeoutMs" 10000 (Schema.Decoder.unsigned .own "u64" u64Greatest))

def ofProperties (properties : Json.Fields) : Except Schema.Defect Settings :=
  Schema.FieldSet.ofObject fields properties

def policies : List Text :=
  ["None", "Basic128Rsa15", "Basic256", "Basic256Sha256", "Aes128Sha256RsaOaep", "Aes256Sha256RsaPss"]

def modes : List Text := ["None", "Sign", "SignAndEncrypt"]

end Settings

inductive SecurityDefect where
  | unknownPolicy (name : Text)
  | unknownMode (name : Text)
deriving DecidableEq

def SecurityDefect.message : SecurityDefect → Text
  | unknownPolicy name => "unknown security policy " ++ name
  | unknownMode name => "unknown security mode " ++ name

def Settings.checkSecurity (s : Settings) : Except SecurityDefect Unit :=
  if s.securityPolicy ∉ policies then .error (.unknownPolicy s.securityPolicy)
  else if s.securityMode ∉ modes then .error (.unknownMode s.securityMode)
  else .ok ()

end FieldGateway.OpcUa
