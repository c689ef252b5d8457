import WixelSdk.Usb

/-!
# USB descriptors

The descriptor structures of `usb.h` as the bytes that are sent to the host.
-/

namespace WixelSdk.Usb

def bytes16 (w : UInt16) : List UInt8 := [w.toUInt8, (w >>> 8).toUInt8]

def usbVendorIdPololu : UInt16 := 0x1FFB

def usbDescriptorDevice (bDeviceClass : UInt8) (idProduct : UInt16) : List UInt8 :=
  [18, 1] ++ bytes16 0x0200 ++ [bDeviceClass, 0, 0, 32] ++ bytes16 usbVendorIdPololu ++
    bytes16 idProduct ++ bytes16 0x0000 ++ [1, 2, 3, 1]

def usbDescriptorConfiguration (wTotalLength : UInt16) (bNumInterfaces : UInt8) : List UInt8 :=
  [9, 2] ++ bytes16 wTotalLength ++ [bNumInterfaces, 1, 0, 0xC0, 50]

def usbDescriptorInterface (bInterfaceNumber bNumEndpoints bInterfaceClass bInterfaceSubClass
    bInterfaceProtocol iInterface : UInt8) : List UInt8 :=
  [9, 4, bInterfaceNumber, 0, bNumEndpoints, bInterfaceClass, bInterfaceSubClass,
    bInterfaceProtocol, iInterface]

def usbDescriptorEndpoint (bEndpointAddress bmAttributes : UInt8) (wMaxPacketSize : UInt16)
    (bInterval : UInt8) : List UInt8 :=
  [7, 5, bEndpointAddress, bmAttributes] ++ bytes16 wMaxPacketSize ++ [bInterval]

def stringHeader (charCount : UInt16) : UInt16 :=
  let bLength : UInt16 := 2 * (charCount + 1)
  bLength ||| 0x0300

/-- DEFINE_STRING_DESCRIPTOR -/
def stringDescriptor (charCount : UInt16) (chars : List UInt16) : List UInt8 :=
  (stringHeader charCount :: chars).flatMap bytes16

def chars (s : String) : List UInt16 := s.toList.map fun c => UInt16.ofNat c.toNat

def languages : List UInt8 := stringDescriptor 1 [0x0409]

def manufacturer : List UInt8 := stringDescriptor 18 (chars "Pololu Corporation")

def product : List UInt8 := stringDescriptor 5 (chars "Wixel")

def contents (bytes : List UInt8) (i : ℕ) : UInt8 := bytes.getD i 0

theorem stringDescriptor_length (charCount : UInt16) (chars : List UInt16)
    (hlen : chars.length = charCount.toNat) (hsmall : charCount.toNat < 127) :
    (stringDescriptor charCount chars).length =
      (contents (stringDescriptor charCount chars) 0).toNat := by
  have hpair : ∀ ws : List UInt16, (ws.flatMap bytes16).length = 2 * ws.length := by
    intro ws
    induction ws with
    | nil => rfl
    | cons w ws ih =>
        rw [List.flatMap_cons, List.length_append, ih, List.length_cons]
        simp only [bytes16, List.length_cons, List.length_nil]
        omega
  have hlow : (stringHeader charCount).toUInt8 = (2 * (charCount + 1)).toUInt8 := by
    rw [stringHeader, UInt16.toUInt8_or]
    exact UInt8.or_zero
  have hfirst : contents (stringDescriptor charCount chars) 0 =
      (2 * (charCount + 1)).toUInt8 := hlow
  rw [hfirst, stringDescriptor, hpair, List.length_cons, hlen, UInt16.toNat_toUInt8,
    UInt16.toNat_mul, UInt16.toNat_add]
  simp only [UInt16.reduceToNat]
  omega

end WixelSdk.Usb
