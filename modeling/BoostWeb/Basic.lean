import Mathlib.Data.List.Basic

/-! # Strings, error codes and protocol masks

What the HTTP and the websocket sessions share.
-/

namespace BoostWeb

/-- A `std::string`, or a stream of octets: one character stands for one octet. -/
abbrev Str := List Char

/-- The errors that some handler compares its `error_code` with. -/
inductive ErrorKind
  | endOfStream
  | streamTruncated
  | closed
  | other
  deriving DecidableEq, Repr

/-- A `boost::beast::error_code` that reports an error; success is `none` where one is optional. -/
structure ErrorCode where
  kind : ErrorKind
  value : Int
  message : Str
  deriving DecidableEq, Repr

/-- The plain and the ssl instance of a session template. -/
inductive Derived
  | plain
  | ssl
  deriving DecidableEq, Repr

namespace SupportProtocol

def protocolHttp : UInt8 := 0x01
def protocolHttps : UInt8 := 0x02
def protocolHttpss : UInt8 := protocolHttp ||| protocolHttps
def protocolWs : UInt8 := 0x04
def protocolWss : UInt8 := 0x08
def protocolWsss : UInt8 := protocolWs ||| protocolWss
def protocolPlain : UInt8 := protocolHttp ||| protocolWs
def protocolSsl : UInt8 := protocolHttps ||| protocolWss
def protocolAll : UInt8 := protocolHttpss ||| protocolWsss

end SupportProtocol

end BoostWeb
