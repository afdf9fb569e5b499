import NgxWasm.Nginx

/-!
# The decimal text of a counter (`ngx_http_wasm_shm_parse_i32`, `ngx_http_wasm_shm_format_i32`)

`shm_incr` keeps its number as ASCII text. C integers are `Int` here: `i32` and `u32` are the
conversions to `int32_t` and `uint32_t`, applied exactly where the code converts or where a
signed result is stored, so that an overflow shows as a result `i32` changes.

The loops are written as the source has them: the guard before each digit, the accumulator, and the
buffer that is filled from its end. What they compute is in `Shm.DecimalText`, which texts they
accept in `Shm.Numeral`, and where a signed operation overflows in `Shm.Overflow`.
-/

namespace NgxWasm.Shm

/-- Conversion to `int32_t` (two's complement). -/
def i32 (x : Int) : Int := x.bmod (2 ^ 32)

/-- Conversion to `uint32_t`. -/
def u32 (x : Int) : Nat := (x % 2 ^ 32).toNat

/-- `INT32_MIN`. -/
def int32Min : Int := -2147483648

/-- `INT32_MAX`. -/
def int32Max : Int := 2147483647

/-- `NGX_INT_T_LEN` on a 64-bit platform. -/
def ngxIntTLen : Nat := 20

/-- The digit loop of `ngx_http_wasm_shm_parse_i32` from the accumulator `result`. -/
def parseDigits (limit : Nat) : Bytes → Int → Option Int
  | [], result => some result
  | ch :: rest, result =>
    if ch < 48 || ch > 57 then none
    else
      let digit := (ch - 48).toNat
      if u32 result > limit / 10 || (u32 result == limit / 10 && decide (digit > limit % 10)) then none
      else parseDigits limit rest (i32 (result * 10 + digit))

/-- `ngx_http_wasm_shm_parse_i32`; `none` is `NGX_ERROR`. -/
def parseI32 (data : Bytes) : Option Int :=
  let negative := data.head? == some 45
  let digits := if negative then data.tail else data
  -- `len == 0`, or nothing after the sign
  if digits.isEmpty then none
  else
    match parseDigits (if negative then 2147483648 else 2147483647) digits 0 with
    | none => none
    | some result =>
      if negative then
        if u32 result = 2147483648 then some int32Min else some (i32 (-result))
      else some result

/-- The `do … while` loop of `ngx_http_wasm_shm_format_i32`: the digits of `magnitude`, last one
first. The bound is the length of `tmp`, which ten digits never reach. -/
def formatDigits : Nat → Nat → Bytes
  | 0, _ => []
  | n + 1, magnitude =>
    (48 + UInt8.ofNat (magnitude % 10)) ::
      if magnitude / 10 = 0 then [] else formatDigits n (magnitude / 10)

/-- `ngx_http_wasm_shm_format_i32`: the bytes written to `buf`. -/
def formatI32 (value : Int) : Bytes :=
  let magnitude := if value < 0 then u32 (-(value + 1)) + 1 else u32 value
  let digits := (formatDigits ngxIntTLen magnitude).reverse
  if value < 0 then 45 :: digits else digits

end NgxWasm.Shm
