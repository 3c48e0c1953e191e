import LinuxEmbedded.Gateway.Common
import LinuxEmbedded.Lib.Framing

/-
The memory image of `sensor_data_t`, which the sensor node writes to its socket and
the gateway reads back: `int`, `float` and `time_t` without padding, little-endian.
A `float` is its bit pattern.
-/
namespace LinuxEmbedded
namespace Gateway

open Framing (Byte)

abbrev FloatBits := BitVec 32

abbrev SensorRecord := SensorData FloatBits

/-- `sizeof(sensor_data_t)`. -/
def recordSize : Nat := 16

def recordBytes (r : SensorRecord) : List Byte :=
  Framing.toBytes 4 r.sensorId.toBitVec.toNat ++ Framing.toBytes 4 r.temperature.toNat ++
    Framing.toBytes 8 r.timestamp.toBitVec.toNat

def recordOf (bytes : List Byte) : SensorRecord where
  sensorId := Int32.ofBitVec (BitVec.ofNat 32 (Framing.ofBytes (bytes.take 4)))
  temperature := BitVec.ofNat 32 (Framing.ofBytes ((bytes.drop 4).take 4))
  timestamp := Int64.ofBitVec (BitVec.ofNat 64 (Framing.ofBytes ((bytes.drop 8).take 8)))

theorem recordBytes_length (r : SensorRecord) : (recordBytes r).length = recordSize := by
  rw [recordBytes, List.length_append, List.length_append, Framing.toBytes_length,
    Framing.toBytes_length, Framing.toBytes_length]
  rfl

theorem recordOf_recordBytes (r : SensorRecord) : recordOf (recordBytes r) = r := by
  have hid : (recordBytes r).take 4 = Framing.toBytes 4 r.sensorId.toBitVec.toNat := by
    rw [recordBytes, List.append_assoc]
    exact List.take_left' (Framing.toBytes_length ..)
  have htemp : ((recordBytes r).drop 4).take 4 = Framing.toBytes 4 r.temperature.toNat := by
    rw [recordBytes, List.append_assoc, List.drop_left' (Framing.toBytes_length ..)]
    exact List.take_left' (Framing.toBytes_length ..)
  have htime : ((recordBytes r).drop 8).take 8 =
      Framing.toBytes 8 r.timestamp.toBitVec.toNat := by
    have hlen : (Framing.toBytes 4 r.sensorId.toBitVec.toNat ++
        Framing.toBytes 4 r.temperature.toNat).length = 8 := by
      rw [List.length_append, Framing.toBytes_length, Framing.toBytes_length]
    rw [recordBytes, List.drop_left' hlen]
    exact List.take_of_length_le (Nat.le_of_eq (Framing.toBytes_length ..))
  have hint := Framing.ofNat_ofBytes_toBytes 4 r.sensorId.toBitVec
  have hfloat := Framing.ofNat_ofBytes_toBytes 4 r.temperature
  have hlong := Framing.ofNat_ofBytes_toBytes 8 r.timestamp.toBitVec
  rw [recordOf, hid, htemp, htime, hint, hfloat, hlong]
  rfl

def recordCodec : Framing.Codec SensorRecord where
  size := recordSize
  encode := recordBytes
  decode := recordOf
  size_pos := by decide
  encode_length := recordBytes_length
  decode_encode := recordOf_recordBytes

end Gateway
end LinuxEmbedded
