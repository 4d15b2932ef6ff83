import NoiseFilter.Configuration.Basic
import NoiseFilter.Json.Record
import NoiseFilter.Json.Writer

/-!
# Configuration documents

The settings of a filter and the configuration of a replay are kept as JSON documents. Each is a record
whose fields may all be left out, so the empty document stands for the default. Writer and reader list
the same fields in the same order: `Settings.toDocument` beside `Settings.fields`, and
`Configuration.toDocument` beside `Configuration.fields`.
-/

namespace NoiseFilter

open Json

namespace Settings

/-- The fields of settings. -/
def fields : List (RecordField Settings) :=
  [.of "enabled" readBool fun enabled s => { s with enabled },
    .of "threshold" readSingle fun threshold s => { s with threshold },
    .of "aggressive" readBool fun aggressive s => { s with aggressive },
    .of "carry_remainder" readBool fun carryRemainder s => { s with carryRemainder }]

/-- **Settings in a document.** -/
def reader : Reader Settings := readRecord "struct NoiseFilterConfig" fields default

/-- The settings that a document holds. -/
def parse (bytes : Bytes) : Except Json.Error Settings := readAll reader bytes

/-- **Settings as a document.** -/
def toDocument (s : Settings) : Document :=
  .object [("enabled", .boolean s.enabled), ("threshold", .single s.threshold),
    ("aggressive", .boolean s.aggressive), ("carry_remainder", .boolean s.carryRemainder)]

end Settings

namespace Configuration

/-- The fields of a configuration. -/
def fields : List (RecordField Configuration) :=
  [.of "noise_filter" Settings.reader fun filter c => { c with filter },
    .of "packet_bytes" (readNatural "usize" wordLimit) fun n c =>
      { c with packetBytes := UInt64.ofNat n },
    .of "payload_type" (readNatural "u8" 256) fun n c => { c with payloadType := UInt8.ofNat n },
    .of "ssrc" (readNatural "u32" 4294967296) fun n c => { c with ssrc := UInt32.ofNat n }]

/-- **A configuration in a document.** -/
def reader : Reader Configuration := readRecord "struct AppConfig" fields default

/-- The configuration that a document holds. -/
def parse (bytes : Bytes) : Except Json.Error Configuration := readAll reader bytes

/-- **A configuration as a document.** -/
def toDocument (c : Configuration) : Document :=
  .object [("noise_filter", c.filter.toDocument), ("packet_bytes", .natural c.packetBytes.toNat),
    ("payload_type", .natural c.payloadType.toNat), ("ssrc", .natural c.ssrc.toNat)]

end Configuration

end NoiseFilter
