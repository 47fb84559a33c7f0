import GemBinder.Override

/-! # Built-in overrides

    The methods of M5Unified that need knowledge of the library: results
    that come through pointers become arrays, colours become numbers, and
    what takes objects or structs is skipped. -/

namespace GemBinder

open Text

/-- The lines of code, each ended by a newline. -/
def codeLines (lines : List String) : String := String.join (lines.map (· ++ "\n"))

/-- The opening line of a function body. -/
def opening (head : String) : String := head ++ " \x7b"

/-- The head of the function that the virtual machine calls. -/
def vmHead (symbol : String) : String :=
  s!"static void {symbol}(mrbc_vm *vm, mrbc_value *v, int argc)"

/-- Code for the overloads of a class. -/
def snippetFor (accepts : Method → Bool) (code : Method → String) : Snippet := fun m =>
  .ok (if accepts m then some (code m) else none)

/-! ## Arrays -/

/-- Binding code for a native function that fills an array: its values
    become the items of an array of the virtual machine. -/
def arrayBinding (function symbol element : String) (names : List String)
    (construct : String → String) : String :=
  let count := names.length
  let items := names.zipIdx.flatMap fun (name, i) =>
    let value := construct s!"result[{i}]"
    [s!"    mrbc_value {name} = {value};",
     s!"    mrbc_array_set(&array, {i}, &{name});"]
  codeLines <|
    [s!"extern int {function}({element}* result);",
     opening (vmHead symbol),
     s!"  {element} result[{count}];",
     opening s!"  if ({function}(result))",
     s!"    mrbc_value array = mrbc_array_new(vm, {count});"] ++ items ++
    ["    SET_RETURN(array);",
     "  \x7d else \x7b",
     "    SET_NIL_RETURN();",
     "  \x7d",
     "\x7d"]

/-- Three results through pointers, as an array of floats. -/
def tripleOverride (classKey method call : String) (a b c : String) : Action :=
  let function := s!"m5unified_{classKey}_{lowerString method}_array"
  let native := codeLines
    [opening s!"int {function}(float* result)",
     s!"  float {a}, {b}, {c};",
     s!"  bool success = {call}(&{a}, &{b}, &{c});",
     opening "  if (success)",
     s!"    result[0] = {a};",
     s!"    result[1] = {b};",
     s!"    result[2] = {c};",
     "    return 1;",
     "  \x7d",
     "  return 0;",
     "\x7d"]
  .custom (snippetFor (·.arity == 3) fun _ => native)
    (snippetFor (·.arity == 3) fun m =>
      arrayBinding function m.vmName "float" [a, b, c] fun v => s!"mrbc_float_value(vm, {v})")

/-- The fields of a struct, as an array of integers. -/
def fieldsOverride (method element : String) (body names : List String) : Action :=
  let function := s!"m5unified_rtc_class_{lowerString method}_array"
  let native := codeLines <|
    opening s!"int {function}({element}* result)" ::
    body.map ("  " ++ ·) ++ [s!"  return {names.length};", "\x7d"]
  .custom (snippetFor (·.arity == 0) fun _ => native)
    (snippetFor (·.arity == 0) fun m =>
      arrayBinding function m.vmName element names fun v => s!"mrbc_integer_value({v})")

/-! ## Single methods -/

/-- Whether an overload of an arity takes a colour that cannot cross. -/
def takesColor (arity : Nat) (m : Method) : Bool :=
  m.arity == arity && m.parameterTypes.any TypeRules.default.isUnsupported

/-- Begins with the default configuration; the overload with parameters is
    left to the rules. -/
def beginOverride : Action :=
  let function := "m5unified_m5unified_begin_void"
  .custom
    (snippetFor (·.parameters.isEmpty) fun _ => codeLines
      [opening s!"void {function}(void)",
       "  auto cfg = M5.config();",
       "  M5.begin(cfg);",
       "\x7d"])
    (snippetFor (·.parameters.isEmpty) fun m => codeLines
      [s!"extern void {function}(void);",
       opening (vmHead m.vmName),
       s!"  {function}();",
       "  SET_NIL_RETURN();",
       "\x7d"])

/-- Sets the colour of all lights from a number. -/
def setAllColorOverride : Action :=
  let function := "m5unified_led_class_setallcolor_uint32"
  .custom
    (snippetFor (takesColor 1) fun _ => codeLines
      [opening s!"void {function}(uint32_t rgb888)",
       "  M5.Led.setAllColor(rgb888);",
       "\x7d"])
    (snippetFor (takesColor 1) fun m => codeLines
      [s!"extern void {function}(uint32_t rgb888);",
       opening (vmHead m.vmName),
       "  uint32_t rgb888 = GET_INT_ARG(1);",
       s!"  {function}(rgb888);",
       "  SET_NIL_RETURN();",
       "\x7d"])

/-- Sets the colour of one light from a number. -/
def setColorOverride : Action :=
  let function := "m5unified_led_class_setcolor_size_t_uint32"
  .custom
    (snippetFor (takesColor 2) fun _ => codeLines
      [opening s!"void {function}(size_t index, uint32_t rgb888)",
       "  M5.Led.setColor(index, rgb888);",
       "\x7d"])
    (snippetFor (takesColor 2) fun m => codeLines
      [s!"extern void {function}(size_t index, uint32_t rgb888);",
       opening (vmHead m.vmName),
       "  size_t index = GET_INT_ARG(1);",
       "  uint32_t rgb888 = GET_INT_ARG(2);",
       s!"  {function}(index, rgb888);",
       "  SET_NIL_RETURN();",
       "\x7d"])

/-! ## The registry -/

/-- The built-in registry. -/
def Registry.builtin : Registry := .ofEntries
  [("m5unified::dsp",
      .skip "Multiple overloads with problematic types. Use M5.begin(config) instead."),
   ("m5unified::adddisplay",
      .skip "Takes M5GFX& parameter (object reference not supported in mrubyc)"),
   ("log_class::setdisplay", .skip "Takes M5GFX& parameter (object reference not supported)"),
   ("m5unified::begin", beginOverride),
   ("led_class::setallcolor", setAllColorOverride),
   ("led_class::setcolor", setColorOverride),
   ("rtc_base::gettime", .skip "Returns rtc_time_t& (struct reference not supported)"),
   ("rtc_base::getdate", .skip "Returns rtc_date_t& (struct reference not supported)"),
   ("rtc_base::getdatetime", .skip "Returns rtc_datetime_t& (struct reference not supported)"),
   ("rtc_base::settime", .skip "Takes rtc_time_t& parameter (struct reference not supported)"),
   ("rtc_base::setdate", .skip "Takes rtc_date_t& parameter (struct reference not supported)"),
   ("rtc_base::setdatetime",
      .skip "Takes rtc_datetime_t& parameter (struct reference not supported)"),
   ("imu_class::getaccel",
      tripleOverride "imu_class" "getAccel" "M5.Imu.getAccel" "ax" "ay" "az"),
   ("imu_class::getgyro", tripleOverride "imu_class" "getGyro" "M5.Imu.getGyro" "gx" "gy" "gz"),
   ("imu_class::getmag", tripleOverride "imu_class" "getMag" "M5.Imu.getMag" "mx" "my" "mz"),
   ("rtc_class::gettime", fieldsOverride "getTime" "int8_t"
      ["rtc_time_t time = M5.Rtc.getTime();",
       "result[0] = time.hours;",
       "result[1] = time.minutes;",
       "result[2] = time.seconds;"]
      ["hours", "minutes", "seconds"]),
   ("rtc_class::getdate", fieldsOverride "getDate" "int16_t"
      ["rtc_date_t date = M5.Rtc.getDate();",
       "result[0] = date.year;",
       "result[1] = date.month;",
       "result[2] = date.date;",
       "result[3] = date.weekDay;"]
      ["year", "month", "date", "weekday"]),
   ("rtc_class::getdatetime", fieldsOverride "getDateTime" "int16_t"
      ["rtc_datetime_t dt = M5.Rtc.getDateTime();",
       "result[0] = dt.date.year;",
       "result[1] = dt.date.month;",
       "result[2] = dt.date.date;",
       "result[3] = dt.date.weekDay;",
       "result[4] = dt.time.hours;",
       "result[5] = dt.time.minutes;",
       "result[6] = dt.time.seconds;"]
      ["year", "month", "date", "weekday", "hours", "minutes", "seconds"])]

end GemBinder
