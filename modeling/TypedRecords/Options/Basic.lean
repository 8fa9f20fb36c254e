import TypedRecords.Error
/-!
# Options

What inference and decoding can be told, with the defaults and the rules for sensible values.
-/

namespace TypedRecords

structure Options where
  /-- The share of the records that inference looks at. -/
  samplingRatio : Double := Floating.ofInt 1
  samplingSeed : UInt64 := 1
  /-- The column that keeps the text of records that cannot be read. -/
  corruptColumn : Option String := some "_corrupt_record"
  /-- Refuse words for numbers that are not finite. -/
  strictNumbers : Bool := false
  emptyStringAsNull : Bool := true
  prefersDecimal : Bool := false
  inferTimestamps : Bool := false
  caseSensitive : Bool := true
  deriving DecidableEq, Repr, Inhabited

namespace Options

/-- Above this ratio every record is kept. -/
def samplingLimit : Double := Floating.ofDecimal false 99 (-2)

def isSampling (o : Options) : Bool := o.samplingRatio.atMost samplingLimit

def validate (o : Options) : Except Error Unit :=
  if !Floating.zero.less o.samplingRatio then .error (.samplingRatio o.samplingRatio)
  else if (Floating.ofInt 1).less o.samplingRatio then
    .error (.invalidOption "sampling_ratio"
      ("must be at most 1.0, got " ++ o.samplingRatio.messageText))
  else if o.corruptColumn = some "" then
    .error (.invalidOption "corrupt_record_column" "must not be empty")
  else .ok ()

def validated (o : Options) : Except Error Options := o.validate.map fun _ => o

end Options

end TypedRecords
