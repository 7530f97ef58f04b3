/-!
# Column types

The data types of a database column, each with the code under which table map events name it.

* `ColumnType.code`, `ofCode?`: the code of a type and the type of a code;
* `ColumnType.name`, `ofName?`: the same for names;
* `ColumnType.isBinary`: are values of the type raw bytes?
-/

namespace ChangeFeed

/-- The data type of a column. -/
inductive ColumnType where
  | decimal
  | tiny
  | short
  | long
  | float
  | double
  | null
  | timestamp
  | longLong
  | int24
  | date
  | time
  | dateTime
  | year
  | newDate
  | varChar
  | bit
  | timestamp2
  | dateTime2
  | time2
  | invalid
  | bool
  | json
  | newDecimal
  | enumeration
  | set
  | tinyBlob
  | mediumBlob
  | longBlob
  | blob
  | varString
  | string
  | geometry
  deriving DecidableEq, Repr, Inhabited

namespace ColumnType

/-- Every type once. -/
def all : List ColumnType :=
  [decimal, tiny, short, long, float, double, null, timestamp, longLong, int24, date, time,
    dateTime, year, newDate, varChar, bit, timestamp2, dateTime2, time2, invalid, bool, json,
    newDecimal, enumeration, set, tinyBlob, mediumBlob, longBlob, blob, varString, string, geometry]

/-- The code of a type. -/
def code : ColumnType → UInt8
  | decimal => 0
  | tiny => 1
  | short => 2
  | long => 3
  | float => 4
  | double => 5
  | null => 6
  | timestamp => 7
  | longLong => 8
  | int24 => 9
  | date => 10
  | time => 11
  | dateTime => 12
  | year => 13
  | newDate => 14
  | varChar => 15
  | bit => 16
  | timestamp2 => 17
  | dateTime2 => 18
  | time2 => 19
  | invalid => 243
  | bool => 244
  | json => 245
  | newDecimal => 246
  | enumeration => 247
  | set => 248
  | tinyBlob => 249
  | mediumBlob => 250
  | longBlob => 251
  | blob => 252
  | varString => 253
  | string => 254
  | geometry => 255

/-- The name of a type. -/
def name : ColumnType → String
  | decimal => "Decimal"
  | tiny => "Tiny"
  | short => "Short"
  | long => "Long"
  | float => "Float"
  | double => "Double"
  | null => "Null"
  | timestamp => "Timestamp"
  | longLong => "LongLong"
  | int24 => "Int24"
  | date => "Date"
  | time => "Time"
  | dateTime => "DateTime"
  | year => "Year"
  | newDate => "NewDate"
  | varChar => "VarChar"
  | bit => "Bit"
  | timestamp2 => "Timestamp2"
  | dateTime2 => "DateTime2"
  | time2 => "Time2"
  | invalid => "Invalid"
  | bool => "Bool"
  | json => "Json"
  | newDecimal => "NewDecimal"
  | enumeration => "Enum"
  | set => "Set"
  | tinyBlob => "TinyBlob"
  | mediumBlob => "MediumBlob"
  | longBlob => "LongBlob"
  | blob => "Blob"
  | varString => "VarString"
  | string => "String"
  | geometry => "Geometry"

/-- The type of a code. -/
def ofCode? (c : UInt8) : Option ColumnType :=
  all.find? (·.code == c)

/-- The type of a name. -/
def ofName? (s : String) : Option ColumnType :=
  all.find? (·.name == s)

/-- Are values of the type raw bytes? -/
def isBinary : ColumnType → Bool
  | tinyBlob | mediumBlob | longBlob | blob | geometry | bit => true
  | _ => false

theorem ofName?_name (t : ColumnType) : ofName? t.name = some t := by cases t <;> decide

end ColumnType

end ChangeFeed
