import ZMachine.Opcode.Basic

/-!
# The opcode tables of the standard

For every opcode its mnemonic, the versions that declare it, and whether its instructions end in a store variable or in a
branch.  Where versions give one opcode two names, the earlier name stands.
-/

namespace ZMachine.Standard

/-- Mnemonics of the opcodes with two operands, from number 1 on. -/
def twoOperandNames : List String :=
  ["je", "jl", "jg", "dec_chk", "inc_chk", "jin", "test", "or", "and", "test_attr", "set_attr", "clear_attr", "store",
    "insert_obj", "loadw", "loadb", "get_prop", "get_prop_addr", "get_next_prop", "add", "sub", "mul", "div", "mod",
    "call_2s", "call_2n", "set_colour", "throw"]

/-- Mnemonics of the opcodes with one operand, from number 0 on. -/
def oneOperandNames : List String :=
  ["jz", "get_sibling", "get_child", "get_parent", "get_prop_len", "inc", "dec", "print_addr", "call_1s", "remove_obj",
    "print_obj", "ret", "jump", "print_paddr", "load", "not"]

/-- Mnemonics of the opcodes without operands, from number 0 on. -/
def zeroOperandNames : List String :=
  ["rtrue", "rfalse", "print", "print_ret", "nop", "save", "restore", "restart", "ret_popped", "pop", "quit", "new_line",
    "show_status", "verify", "extended", "piracy"]

/-- Mnemonics of the opcodes with any number of operands, from number 0 on. -/
def varOperandNames : List String :=
  ["call", "storew", "storeb", "put_prop", "sread", "print_char", "print_num", "random", "push", "pull", "split_window",
    "set_window", "call_vs2", "erase_window", "erase_line", "set_cursor", "get_cursor", "set_text_style", "buffer_mode",
    "output_stream", "input_stream", "sound_effect", "read_char", "scan_table", "not", "call_vn", "call_vn2", "tokenise",
    "encode_text", "copy_table", "print_table", "check_arg_count"]

/-- The mnemonic of an opcode, or a word that says which table does not have it. -/
def name (count : OperandCount) (number : UInt8) : String :=
  match count with
  | .zero => zeroOperandNames.getD number.toNat "unknown_0op"
  | .one => oneOperandNames.getD number.toNat "unknown_1op"
  | .two => if number = 0 then "unknown_2op" else twoOperandNames.getD (number.toNat - 1) "unknown_2op"
  | .var => varOperandNames.getD number.toNat "unknown_var"

/-- Whether the standard has the opcode in a version. -/
def declares (version : UInt8) (count : OperandCount) (number : UInt8) : Bool :=
  match count with
  | .zero =>
    if number = 12 then version ≤ 3
    else if number = 14 ∨ number = 15 then 5 ≤ version
    else number ≤ 13
  | .one => number ≤ 15
  | .two =>
    if 1 ≤ version ∧ version ≤ 3 then 1 ≤ number ∧ number ≤ 24
    else if version = 4 then 1 ≤ number ∧ number ≤ 25
    else 1 ≤ number ∧ number ≤ 28
  | .var =>
    if 1 ≤ version ∧ version ≤ 3 then number ≤ 11 ∨ (19 ≤ number ∧ number ≤ 21)
    else if version = 4 then number ≤ 23
    else number ≤ 31

/-- Whether instructions with the opcode name a variable for their result. -/
def stores (version : UInt8) (count : OperandCount) (number : UInt8) : Bool :=
  match count with
  | .zero =>
    if number = 5 ∨ number = 6 then version = 4
    else if number = 9 then 5 ≤ version
    else false
  | .one =>
    if 1 ≤ number ∧ number ≤ 4 then true
    else if number = 8 then 4 ≤ version
    else if number = 14 then true
    else if number = 15 then version ≤ 4
    else false
  | .two =>
    if 8 ≤ number ∧ number ≤ 9 then true
    else if 15 ≤ number ∧ number ≤ 24 then true
    else if number = 25 then 4 ≤ version
    else false
  | .var =>
    if number = 0 ∨ number = 7 then true
    else if number = 4 then 5 ≤ version
    else if number = 12 then 4 ≤ version
    else if number = 22 ∨ number = 23 then 4 ≤ version
    else if number = 24 then 5 ≤ version
    else false

/-- Whether instructions with the opcode end in a branch. -/
def branches (version : UInt8) (count : OperandCount) (number : UInt8) : Bool :=
  match count with
  | .zero =>
    if number = 5 ∨ number = 6 then version ≤ 3
    else number = 13 ∨ number = 15
  | .one => number ≤ 2
  | .two => (1 ≤ number ∧ number ≤ 7) ∨ number = 10
  | .var =>
    if number = 23 then 4 ≤ version
    else if number = 31 then 5 ≤ version
    else false

end ZMachine.Standard
