import ContractBindings.Module.Lines

/-!
# The prelude of client modules

Every client module starts with the same declarations: aliases of the hexadecimal types, the
shapes of arguments, decoders and invokers, and the functions that encode arguments. Implementation
modules import them from the client module.
-/

namespace ContractBindings.Module

/-- The names that the prelude exports. -/
def preludeExports : List String :=
  ["Hash160", "Hash256", "PublicKey", "ContractParamType", "ContractArg", "ResultDecoder",
    "InvocationDescriptor", "ContractInvoker", "toHex", "Encode"]

/-- The lines of the prelude. -/
def prelude : Lines :=
  [
    "/* 0x-prefixed hex strings */",
    "export type Hash160 = string;",
    "export type Hash256 = string;",
    "export type PublicKey = string;",
    "",
    "export type ContractParamType =",
    "  | \"Any\"",
    "  | \"Boolean\"",
    "  | \"Integer\"",
    "  | \"ByteArray\"",
    "  | \"String\"",
    "  | \"Hash160\"",
    "  | \"Hash256\"",
    "  | \"PublicKey\"",
    "  | \"Signature\"",
    "  | \"Array\"",
    "  | \"Map\"",
    "  | \"InteropInterface\";",
    "",
    "export interface ContractArg \x7b",
    "  type: ContractParamType;",
    "  value: unknown;",
    "\x7d",
    "",
    "/* null means the result is not decoded */",
    "export type ResultDecoder =",
    "  | ContractParamType",
    "  | \x7b array: ResultDecoder \x7d",
    "  | \x7b map: [ResultDecoder, ResultDecoder] \x7d",
    "  | null;",
    "",
    "export interface InvocationDescriptor \x7b",
    "  scriptHash: Hash160;",
    "  operation: string;",
    "  args: ContractArg[];",
    "\x7d",
    "",
    "export interface ContractInvoker \x7b",
    "  invoke<T>(descriptor: InvocationDescriptor, decoder: ResultDecoder): Promise<T>;",
    "\x7d",
    "",
    "export function toHex(bytes: Uint8Array): string \x7b",
    "  return Array.from(bytes, (b) => b.toString(16).padStart(2, \"0\")).join(\"\");",
    "\x7d",
    "",
    "export const Encode = \x7b",
    "  integer: (value: bigint): ContractArg => (\x7b type: \"Integer\", value: value.toString() \x7d),",
    "  boolean: (value: boolean): ContractArg => (\x7b type: \"Boolean\", value \x7d),",
    "  byteArray: (value: Uint8Array): ContractArg => (\x7b type: \"ByteArray\", value: toHex(value) \x7d),",
    "  signature: (value: Uint8Array): ContractArg => (\x7b type: \"Signature\", value: toHex(value) \x7d),",
    "  string: (value: string): ContractArg => (\x7b type: \"String\", value \x7d),",
    "  hash160: (value: Hash160): ContractArg => (\x7b type: \"Hash160\", value \x7d),",
    "  hash256: (value: Hash256): ContractArg => (\x7b type: \"Hash256\", value \x7d),",
    "  publicKey: (value: PublicKey): ContractArg => (\x7b type: \"PublicKey\", value \x7d),",
    "  interop: (value: unknown): ContractArg => (\x7b type: \"InteropInterface\", value \x7d),",
    "  any: (value: unknown): ContractArg => (\x7b type: \"Any\", value \x7d),",
    "  array: <T>(value: T[], item: (v: T) => ContractArg): ContractArg => (\x7b",
    "    type: \"Array\",",
    "    value: value.map((v) => item(v)),",
    "  \x7d),",
    "  map: <K, V>(value: Map<K, V>, key: (k: K) => ContractArg, entry: (v: V) => ContractArg): ContractArg => (\x7b",
    "    type: \"Map\",",
    "    value: Array.from(value, ([k, v]) => (\x7b key: key(k), value: entry(v) \x7d)),",
    "  \x7d),",
    "\x7d;"]

end ContractBindings.Module
