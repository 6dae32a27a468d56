/-! What the platform decides about text and addresses. -/
namespace Aether.Kotlin

/-- Functions of the runtime that nothing depends on the details of: how octets are decoded as
UTF-8, how letters are lowered, how an address is printed. -/
structure Platform where
  /-- `String(bytes)`. -/
  decode : List UInt8 → String
  /-- `lowercase()`. -/
  lowercase : String → String
  /-- `InetAddress.getByAddress(bytes).hostAddress`. -/
  hostAddress : List UInt8 → String

end Aether.Kotlin
