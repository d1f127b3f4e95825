import PojoGraph.Text.Table

/-!
# General categories

Every code point has exactly one general category. The table lists the code points at which
the category changes, with the category that begins there. Stretches in which upper-case and
lower-case letters alternate take one entry.

## Main definitions

* `Category` — the thirty general categories.
* `category c` — the category of a character.
* `Category.isLetter`, `Category.isMark`, `Category.isNumber` — the coarse classes.
-/

namespace PojoGraph.Text

/-- The general categories, named by their two-letter abbreviations. -/
inductive Category where
  | cc | cf | cn | co | cs | ll | lm | lo | lt | lu | mc | me | mn | nd | nl | no
  | pc | pd | pe | pf | pi | po | ps | sc | sk | sm | so | zl | zp | zs
  deriving DecidableEq, Repr, Inhabited

namespace Category

/-- All categories, in the order in which the table numbers them. -/
def all : Array Category :=
  #[cc, cf, cn, co, cs, ll, lm, lo, lt, lu, mc, me, mn, nd, nl, no,
    pc, pd, pe, pf, pi, po, ps, sc, sk, sm, so, zl, zp, zs]

/-- Letters of any case. -/
def isLetter : Category → Bool
  | ll | lm | lo | lt | lu => true
  | _ => false

/-- Combining marks. -/
def isMark : Category → Bool
  | mc | me | mn => true
  | _ => false

/-- Digits, letter numbers and other numbers. -/
def isNumber : Category → Bool
  | nd | nl | no => true
  | _ => false

end Category

set_option maxRecDepth 16384 in
/-- First code points of the runs of equal category. An entry is the code point times 256
plus the number of the category in `Category.all`; the number 30 marks a stretch in which
`lu` and `ll` alternate, beginning with `lu`. -/
def categoryRuns : Array Nat := #[
  0x0_00, 0x20_1d, 0x21_15, 0x24_17, 0x25_15, 0x28_16, 0x29_12, 0x2a_15, 0x2b_19, 0x2c_15,
  0x2d_11, 0x2e_15, 0x30_0d, 0x3a_15, 0x3c_19, 0x3f_15, 0x41_09, 0x5b_16, 0x5c_15, 0x5d_12,
  0x5e_18, 0x5f_10, 0x60_18, 0x61_05, 0x7b_16, 0x7c_19, 0x7d_12, 0x7e_19, 0x7f_00, 0xa0_1d,
  0xa1_15, 0xa2_17, 0xa6_1a, 0xa7_15, 0xa8_18, 0xa9_1a, 0xaa_07, 0xab_14, 0xac_19, 0xad_01,
  0xae_1a, 0xaf_18, 0xb0_1a, 0xb1_19, 0xb2_0f, 0xb4_18, 0xb5_05, 0xb6_15, 0xb8_18, 0xb9_0f,
  0xba_07, 0xbb_13, 0xbc_0f, 0xbf_15, 0xc0_09, 0xd7_19, 0xd8_09, 0xdf_05, 0xf7_19, 0xf8_05,
  0x100_1e, 0x138_05, 0x139_1e, 0x149_05, 0x14a_1e, 0x178_09, 0x17a_05, 0x17b_1e, 0x17f_05,
  0x181_09, 0x183_05, 0x184_09, 0x185_05, 0x186_09, 0x188_05, 0x189_09, 0x18c_05, 0x18e_09,
  0x192_05, 0x193_09, 0x195_05, 0x196_09, 0x199_05, 0x19c_09, 0x19e_05, 0x19f_09, 0x1a1_05,
  0x1a2_1e, 0x1a6_09, 0x1a8_05, 0x1a9_09, 0x1aa_05, 0x1ac_09, 0x1ad_05, 0x1ae_09, 0x1b0_05,
  0x1b1_09, 0x1b4_05, 0x1b5_09, 0x1b6_05, 0x1b7_09, 0x1b9_05, 0x1bb_07, 0x1bc_09, 0x1bd_05,
  0x1c0_07, 0x1c4_09, 0x1c5_08, 0x1c6_05, 0x1c7_09, 0x1c8_08, 0x1c9_05, 0x1ca_09, 0x1cb_08,
  0x1cc_05, 0x1cd_1e, 0x1dd_05, 0x1de_1e, 0x1f0_05, 0x1f1_09, 0x1f2_08, 0x1f3_05, 0x1f4_09,
  0x1f5_05, 0x1f6_09, 0x1f9_05, 0x1fa_1e, 0x234_05, 0x23a_09, 0x23c_05, 0x23d_09, 0x23f_05,
  0x241_09, 0x242_05, 0x243_09, 0x247_05, 0x248_1e, 0x250_05, 0x294_07, 0x296_05, 0x2b0_06,
  0x2c2_18, 0x2c6_06, 0x2d2_18, 0x2e0_06, 0x2e5_18, 0x2ec_06, 0x2ed_18, 0x2ee_06, 0x2ef_18,
  0x300_0c, 0x370_1e, 0x374_06, 0x375_18, 0x376_09, 0x377_05, 0x378_02, 0x37a_06, 0x37b_05,
  0x37e_15, 0x37f_09, 0x380_02, 0x384_18, 0x386_09, 0x387_15, 0x388_09, 0x38b_02, 0x38c_09,
  0x38d_02, 0x38e_09, 0x390_05, 0x391_09, 0x3a2_02, 0x3a3_09, 0x3ac_05, 0x3cf_09, 0x3d0_05,
  0x3d2_09, 0x3d5_05, 0x3d8_1e, 0x3f0_05, 0x3f4_09, 0x3f5_05, 0x3f6_19, 0x3f7_09, 0x3f8_05,
  0x3f9_09, 0x3fb_05, 0x3fd_09, 0x430_05, 0x460_1e, 0x482_1a, 0x483_0c, 0x488_0b, 0x48a_1e,
  0x4c0_09, 0x4c2_05, 0x4c3_1e, 0x4cf_05, 0x4d0_1e, 0x530_02, 0x531_09, 0x557_02, 0x559_06,
  0x55a_15, 0x560_05, 0x589_15, 0x58a_11, 0x58b_02, 0x58d_1a, 0x58f_17, 0x590_02, 0x591_0c,
  0x5be_11, 0x5bf_0c, 0x5c0_15, 0x5c1_0c, 0x5c3_15, 0x5c4_0c, 0x5c6_15, 0x5c7_0c, 0x5c8_02,
  0x5d0_07, 0x5eb_02, 0x5ef_07, 0x5f3_15, 0x5f5_02, 0x600_01, 0x606_19, 0x609_15, 0x60b_17,
  0x60c_15, 0x60e_1a, 0x610_0c, 0x61b_15, 0x61c_01, 0x61d_15, 0x620_07, 0x640_06, 0x641_07,
  0x64b_0c, 0x660_0d, 0x66a_15, 0x66e_07, 0x670_0c, 0x671_07, 0x6d4_15, 0x6d5_07, 0x6d6_0c,
  0x6dd_01, 0x6de_1a, 0x6df_0c, 0x6e5_06, 0x6e7_0c, 0x6e9_1a, 0x6ea_0c, 0x6ee_07, 0x6f0_0d,
  0x6fa_07, 0x6fd_1a, 0x6ff_07, 0x700_15, 0x70e_02, 0x70f_01, 0x710_07, 0x711_0c, 0x712_07,
  0x730_0c, 0x74b_02, 0x74d_07, 0x7a6_0c, 0x7b1_07, 0x7b2_02, 0x7c0_0d, 0x7ca_07, 0x7eb_0c,
  0x7f4_06, 0x7f6_1a, 0x7f7_15, 0x7fa_06, 0x7fb_02, 0x7fd_0c, 0x7fe_17, 0x800_07, 0x816_0c,
  0x81a_06, 0x81b_0c, 0x824_06, 0x825_0c, 0x828_06, 0x829_0c, 0x82e_02, 0x830_15, 0x83f_02,
  0x840_07, 0x859_0c, 0x85c_02, 0x85e_15, 0x85f_02, 0x860_07, 0x86b_02, 0x870_07, 0x888_18,
  0x889_07, 0x890_01, 0x892_02, 0x897_0c, 0x8a0_07, 0x8c9_06, 0x8ca_0c, 0x8e2_01, 0x8e3_0c,
  0x903_0a, 0x904_07, 0x93a_0c, 0x93b_0a, 0x93c_0c, 0x93d_07, 0x93e_0a, 0x941_0c, 0x949_0a,
  0x94d_0c, 0x94e_0a, 0x950_07, 0x951_0c, 0x958_07, 0x962_0c, 0x964_15, 0x966_0d, 0x970_15,
  0x971_06, 0x972_07, 0x981_0c, 0x982_0a, 0x984_02, 0x985_07, 0x98d_02, 0x98f_07, 0x991_02,
  0x993_07, 0x9a9_02, 0x9aa_07, 0x9b1_02, 0x9b2_07, 0x9b3_02, 0x9b6_07, 0x9ba_02, 0x9bc_0c,
  0x9bd_07, 0x9be_0a, 0x9c1_0c, 0x9c5_02, 0x9c7_0a, 0x9c9_02, 0x9cb_0a, 0x9cd_0c, 0x9ce_07,
  0x9cf_02, 0x9d7_0a, 0x9d8_02, 0x9dc_07, 0x9de_02, 0x9df_07, 0x9e2_0c, 0x9e4_02, 0x9e6_0d,
  0x9f0_07, 0x9f2_17, 0x9f4_0f, 0x9fa_1a, 0x9fb_17, 0x9fc_07, 0x9fd_15, 0x9fe_0c, 0x9ff_02,
  0xa01_0c, 0xa03_0a, 0xa04_02, 0xa05_07, 0xa0b_02, 0xa0f_07, 0xa11_02, 0xa13_07, 0xa29_02,
  0xa2a_07, 0xa31_02, 0xa32_07, 0xa34_02, 0xa35_07, 0xa37_02, 0xa38_07, 0xa3a_02, 0xa3c_0c,
  0xa3d_02, 0xa3e_0a, 0xa41_0c, 0xa43_02, 0xa47_0c, 0xa49_02, 0xa4b_0c, 0xa4e_02, 0xa51_0c,
  0xa52_02, 0xa59_07, 0xa5d_02, 0xa5e_07, 0xa5f_02, 0xa66_0d, 0xa70_0c, 0xa72_07, 0xa75_0c,
  0xa76_15, 0xa77_02, 0xa81_0c, 0xa83_0a, 0xa84_02, 0xa85_07, 0xa8e_02, 0xa8f_07, 0xa92_02,
  0xa93_07, 0xaa9_02, 0xaaa_07, 0xab1_02, 0xab2_07, 0xab4_02, 0xab5_07, 0xaba_02, 0xabc_0c,
  0xabd_07, 0xabe_0a, 0xac1_0c, 0xac6_02, 0xac7_0c, 0xac9_0a, 0xaca_02, 0xacb_0a, 0xacd_0c,
  0xace_02, 0xad0_07, 0xad1_02, 0xae0_07, 0xae2_0c, 0xae4_02, 0xae6_0d, 0xaf0_15, 0xaf1_17,
  0xaf2_02, 0xaf9_07, 0xafa_0c, 0xb00_02, 0xb01_0c, 0xb02_0a, 0xb04_02, 0xb05_07, 0xb0d_02,
  0xb0f_07, 0xb11_02, 0xb13_07, 0xb29_02, 0xb2a_07, 0xb31_02, 0xb32_07, 0xb34_02, 0xb35_07,
  0xb3a_02, 0xb3c_0c, 0xb3d_07, 0xb3e_0a, 0xb3f_0c, 0xb40_0a, 0xb41_0c, 0xb45_02, 0xb47_0a,
  0xb49_02, 0xb4b_0a, 0xb4d_0c, 0xb4e_02, 0xb55_0c, 0xb57_0a, 0xb58_02, 0xb5c_07, 0xb5e_02,
  0xb5f_07, 0xb62_0c, 0xb64_02, 0xb66_0d, 0xb70_1a, 0xb71_07, 0xb72_0f, 0xb78_02, 0xb82_0c,
  0xb83_07, 0xb84_02, 0xb85_07, 0xb8b_02, 0xb8e_07, 0xb91_02, 0xb92_07, 0xb96_02, 0xb99_07,
  0xb9b_02, 0xb9c_07, 0xb9d_02, 0xb9e_07, 0xba0_02, 0xba3_07, 0xba5_02, 0xba8_07, 0xbab_02,
  0xbae_07, 0xbba_02, 0xbbe_0a, 0xbc0_0c, 0xbc1_0a, 0xbc3_02, 0xbc6_0a, 0xbc9_02, 0xbca_0a,
  0xbcd_0c, 0xbce_02, 0xbd0_07, 0xbd1_02, 0xbd7_0a, 0xbd8_02, 0xbe6_0d, 0xbf0_0f, 0xbf3_1a,
  0xbf9_17, 0xbfa_1a, 0xbfb_02, 0xc00_0c, 0xc01_0a, 0xc04_0c, 0xc05_07, 0xc0d_02, 0xc0e_07,
  0xc11_02, 0xc12_07, 0xc29_02, 0xc2a_07, 0xc3a_02, 0xc3c_0c, 0xc3d_07, 0xc3e_0c, 0xc41_0a,
  0xc45_02, 0xc46_0c, 0xc49_02, 0xc4a_0c, 0xc4e_02, 0xc55_0c, 0xc57_02, 0xc58_07, 0xc5b_02,
  0xc5c_07, 0xc5e_02, 0xc60_07, 0xc62_0c, 0xc64_02, 0xc66_0d, 0xc70_02, 0xc77_15, 0xc78_0f,
  0xc7f_1a, 0xc80_07, 0xc81_0c, 0xc82_0a, 0xc84_15, 0xc85_07, 0xc8d_02, 0xc8e_07, 0xc91_02,
  0xc92_07, 0xca9_02, 0xcaa_07, 0xcb4_02, 0xcb5_07, 0xcba_02, 0xcbc_0c, 0xcbd_07, 0xcbe_0a,
  0xcbf_0c, 0xcc0_0a, 0xcc5_02, 0xcc6_0c, 0xcc7_0a, 0xcc9_02, 0xcca_0a, 0xccc_0c, 0xcce_02,
  0xcd5_0a, 0xcd7_02, 0xcdc_07, 0xcdf_02, 0xce0_07, 0xce2_0c, 0xce4_02, 0xce6_0d, 0xcf0_02,
  0xcf1_07, 0xcf3_0a, 0xcf4_02, 0xd00_0c, 0xd02_0a, 0xd04_07, 0xd0d_02, 0xd0e_07, 0xd11_02,
  0xd12_07, 0xd3b_0c, 0xd3d_07, 0xd3e_0a, 0xd41_0c, 0xd45_02, 0xd46_0a, 0xd49_02, 0xd4a_0a,
  0xd4d_0c, 0xd4e_07, 0xd4f_1a, 0xd50_02, 0xd54_07, 0xd57_0a, 0xd58_0f, 0xd5f_07, 0xd62_0c,
  0xd64_02, 0xd66_0d, 0xd70_0f, 0xd79_1a, 0xd7a_07, 0xd80_02, 0xd81_0c, 0xd82_0a, 0xd84_02,
  0xd85_07, 0xd97_02, 0xd9a_07, 0xdb2_02, 0xdb3_07, 0xdbc_02, 0xdbd_07, 0xdbe_02, 0xdc0_07,
  0xdc7_02, 0xdca_0c, 0xdcb_02, 0xdcf_0a, 0xdd2_0c, 0xdd5_02, 0xdd6_0c, 0xdd7_02, 0xdd8_0a,
  0xde0_02, 0xde6_0d, 0xdf0_02, 0xdf2_0a, 0xdf4_15, 0xdf5_02, 0xe01_07, 0xe31_0c, 0xe32_07,
  0xe34_0c, 0xe3b_02, 0xe3f_17, 0xe40_07, 0xe46_06, 0xe47_0c, 0xe4f_15, 0xe50_0d, 0xe5a_15,
  0xe5c_02, 0xe81_07, 0xe83_02, 0xe84_07, 0xe85_02, 0xe86_07, 0xe8b_02, 0xe8c_07, 0xea4_02,
  0xea5_07, 0xea6_02, 0xea7_07, 0xeb1_0c, 0xeb2_07, 0xeb4_0c, 0xebd_07, 0xebe_02, 0xec0_07,
  0xec5_02, 0xec6_06, 0xec7_02, 0xec8_0c, 0xecf_02, 0xed0_0d, 0xeda_02, 0xedc_07, 0xee0_02,
  0xf00_07, 0xf01_1a, 0xf04_15, 0xf13_1a, 0xf14_15, 0xf15_1a, 0xf18_0c, 0xf1a_1a, 0xf20_0d,
  0xf2a_0f, 0xf34_1a, 0xf35_0c, 0xf36_1a, 0xf37_0c, 0xf38_1a, 0xf39_0c, 0xf3a_16, 0xf3b_12,
  0xf3c_16, 0xf3d_12, 0xf3e_0a, 0xf40_07, 0xf48_02, 0xf49_07, 0xf6d_02, 0xf71_0c, 0xf7f_0a,
  0xf80_0c, 0xf85_15, 0xf86_0c, 0xf88_07, 0xf8d_0c, 0xf98_02, 0xf99_0c, 0xfbd_02, 0xfbe_1a,
  0xfc6_0c, 0xfc7_1a, 0xfcd_02, 0xfce_1a, 0xfd0_15, 0xfd5_1a, 0xfd9_15, 0xfdb_02, 0x1000_07,
  0x102b_0a, 0x102d_0c, 0x1031_0a, 0x1032_0c, 0x1038_0a, 0x1039_0c, 0x103b_0a, 0x103d_0c,
  0x103f_07, 0x1040_0d, 0x104a_15, 0x1050_07, 0x1056_0a, 0x1058_0c, 0x105a_07, 0x105e_0c,
  0x1061_07, 0x1062_0a, 0x1065_07, 0x1067_0a, 0x106e_07, 0x1071_0c, 0x1075_07, 0x1082_0c,
  0x1083_0a, 0x1085_0c, 0x1087_0a, 0x108d_0c, 0x108e_07, 0x108f_0a, 0x1090_0d, 0x109a_0a,
  0x109d_0c, 0x109e_1a, 0x10a0_09, 0x10c6_02, 0x10c7_09, 0x10c8_02, 0x10cd_09, 0x10ce_02,
  0x10d0_05, 0x10fb_15, 0x10fc_06, 0x10fd_05, 0x1100_07, 0x1249_02, 0x124a_07, 0x124e_02,
  0x1250_07, 0x1257_02, 0x1258_07, 0x1259_02, 0x125a_07, 0x125e_02, 0x1260_07, 0x1289_02,
  0x128a_07, 0x128e_02, 0x1290_07, 0x12b1_02, 0x12b2_07, 0x12b6_02, 0x12b8_07, 0x12bf_02,
  0x12c0_07, 0x12c1_02, 0x12c2_07, 0x12c6_02, 0x12c8_07, 0x12d7_02, 0x12d8_07, 0x1311_02,
  0x1312_07, 0x1316_02, 0x1318_07, 0x135b_02, 0x135d_0c, 0x1360_15, 0x1369_0f, 0x137d_02,
  0x1380_07, 0x1390_1a, 0x139a_02, 0x13a0_09, 0x13f6_02, 0x13f8_05, 0x13fe_02, 0x1400_11,
  0x1401_07, 0x166d_1a, 0x166e_15, 0x166f_07, 0x1680_1d, 0x1681_07, 0x169b_16, 0x169c_12,
  0x169d_02, 0x16a0_07, 0x16eb_15, 0x16ee_0e, 0x16f1_07, 0x16f9_02, 0x1700_07, 0x1712_0c,
  0x1715_0a, 0x1716_02, 0x171f_07, 0x1732_0c, 0x1734_0a, 0x1735_15, 0x1737_02, 0x1740_07,
  0x1752_0c, 0x1754_02, 0x1760_07, 0x176d_02, 0x176e_07, 0x1771_02, 0x1772_0c, 0x1774_02,
  0x1780_07, 0x17b4_0c, 0x17b6_0a, 0x17b7_0c, 0x17be_0a, 0x17c6_0c, 0x17c7_0a, 0x17c9_0c,
  0x17d4_15, 0x17d7_06, 0x17d8_15, 0x17db_17, 0x17dc_07, 0x17dd_0c, 0x17de_02, 0x17e0_0d,
  0x17ea_02, 0x17f0_0f, 0x17fa_02, 0x1800_15, 0x1806_11, 0x1807_15, 0x180b_0c, 0x180e_01,
  0x180f_0c, 0x1810_0d, 0x181a_02, 0x1820_07, 0x1843_06, 0x1844_07, 0x1879_02, 0x1880_07,
  0x1885_0c, 0x1887_07, 0x18a9_0c, 0x18aa_07, 0x18ab_02, 0x18b0_07, 0x18f6_02, 0x1900_07,
  0x191f_02, 0x1920_0c, 0x1923_0a, 0x1927_0c, 0x1929_0a, 0x192c_02, 0x1930_0a, 0x1932_0c,
  0x1933_0a, 0x1939_0c, 0x193c_02, 0x1940_1a, 0x1941_02, 0x1944_15, 0x1946_0d, 0x1950_07,
  0x196e_02, 0x1970_07, 0x1975_02, 0x1980_07, 0x19ac_02, 0x19b0_07, 0x19ca_02, 0x19d0_0d,
  0x19da_0f, 0x19db_02, 0x19de_1a, 0x1a00_07, 0x1a17_0c, 0x1a19_0a, 0x1a1b_0c, 0x1a1c_02,
  0x1a1e_15, 0x1a20_07, 0x1a55_0a, 0x1a56_0c, 0x1a57_0a, 0x1a58_0c, 0x1a5f_02, 0x1a60_0c,
  0x1a61_0a, 0x1a62_0c, 0x1a63_0a, 0x1a65_0c, 0x1a6d_0a, 0x1a73_0c, 0x1a7d_02, 0x1a7f_0c,
  0x1a80_0d, 0x1a8a_02, 0x1a90_0d, 0x1a9a_02, 0x1aa0_15, 0x1aa7_06, 0x1aa8_15, 0x1aae_02,
  0x1ab0_0c, 0x1abe_0b, 0x1abf_0c, 0x1ade_02, 0x1ae0_0c, 0x1aec_02, 0x1b00_0c, 0x1b04_0a,
  0x1b05_07, 0x1b34_0c, 0x1b35_0a, 0x1b36_0c, 0x1b3b_0a, 0x1b3c_0c, 0x1b3d_0a, 0x1b42_0c,
  0x1b43_0a, 0x1b45_07, 0x1b4d_02, 0x1b4e_15, 0x1b50_0d, 0x1b5a_15, 0x1b61_1a, 0x1b6b_0c,
  0x1b74_1a, 0x1b7d_15, 0x1b80_0c, 0x1b82_0a, 0x1b83_07, 0x1ba1_0a, 0x1ba2_0c, 0x1ba6_0a,
  0x1ba8_0c, 0x1baa_0a, 0x1bab_0c, 0x1bae_07, 0x1bb0_0d, 0x1bba_07, 0x1be6_0c, 0x1be7_0a,
  0x1be8_0c, 0x1bea_0a, 0x1bed_0c, 0x1bee_0a, 0x1bef_0c, 0x1bf2_0a, 0x1bf4_02, 0x1bfc_15,
  0x1c00_07, 0x1c24_0a, 0x1c2c_0c, 0x1c34_0a, 0x1c36_0c, 0x1c38_02, 0x1c3b_15, 0x1c40_0d,
  0x1c4a_02, 0x1c4d_07, 0x1c50_0d, 0x1c5a_07, 0x1c78_06, 0x1c7e_15, 0x1c80_05, 0x1c89_09,
  0x1c8a_05, 0x1c8b_02, 0x1c90_09, 0x1cbb_02, 0x1cbd_09, 0x1cc0_15, 0x1cc8_02, 0x1cd0_0c,
  0x1cd3_15, 0x1cd4_0c, 0x1ce1_0a, 0x1ce2_0c, 0x1ce9_07, 0x1ced_0c, 0x1cee_07, 0x1cf4_0c,
  0x1cf5_07, 0x1cf7_0a, 0x1cf8_0c, 0x1cfa_07, 0x1cfb_02, 0x1d00_05, 0x1d2c_06, 0x1d6b_05,
  0x1d78_06, 0x1d79_05, 0x1d9b_06, 0x1dc0_0c, 0x1e00_1e, 0x1e96_05, 0x1e9e_1e, 0x1f00_05,
  0x1f08_09, 0x1f10_05, 0x1f16_02, 0x1f18_09, 0x1f1e_02, 0x1f20_05, 0x1f28_09, 0x1f30_05,
  0x1f38_09, 0x1f40_05, 0x1f46_02, 0x1f48_09, 0x1f4e_02, 0x1f50_05, 0x1f58_02, 0x1f59_09,
  0x1f5a_02, 0x1f5b_09, 0x1f5c_02, 0x1f5d_09, 0x1f5e_02, 0x1f5f_09, 0x1f60_05, 0x1f68_09,
  0x1f70_05, 0x1f7e_02, 0x1f80_05, 0x1f88_08, 0x1f90_05, 0x1f98_08, 0x1fa0_05, 0x1fa8_08,
  0x1fb0_05, 0x1fb5_02, 0x1fb6_05, 0x1fb8_09, 0x1fbc_08, 0x1fbd_18, 0x1fbe_05, 0x1fbf_18,
  0x1fc2_05, 0x1fc5_02, 0x1fc6_05, 0x1fc8_09, 0x1fcc_08, 0x1fcd_18, 0x1fd0_05, 0x1fd4_02,
  0x1fd6_05, 0x1fd8_09, 0x1fdc_02, 0x1fdd_18, 0x1fe0_05, 0x1fe8_09, 0x1fed_18, 0x1ff0_02,
  0x1ff2_05, 0x1ff5_02, 0x1ff6_05, 0x1ff8_09, 0x1ffc_08, 0x1ffd_18, 0x1fff_02, 0x2000_1d,
  0x200b_01, 0x2010_11, 0x2016_15, 0x2018_14, 0x2019_13, 0x201a_16, 0x201b_14, 0x201d_13,
  0x201e_16, 0x201f_14, 0x2020_15, 0x2028_1b, 0x2029_1c, 0x202a_01, 0x202f_1d, 0x2030_15,
  0x2039_14, 0x203a_13, 0x203b_15, 0x203f_10, 0x2041_15, 0x2044_19, 0x2045_16, 0x2046_12,
  0x2047_15, 0x2052_19, 0x2053_15, 0x2054_10, 0x2055_15, 0x205f_1d, 0x2060_01, 0x2065_02,
  0x2066_01, 0x2070_0f, 0x2071_06, 0x2072_02, 0x2074_0f, 0x207a_19, 0x207d_16, 0x207e_12,
  0x207f_06, 0x2080_0f, 0x208a_19, 0x208d_16, 0x208e_12, 0x208f_02, 0x2090_06, 0x209d_02,
  0x20a0_17, 0x20c2_02, 0x20d0_0c, 0x20dd_0b, 0x20e1_0c, 0x20e2_0b, 0x20e5_0c, 0x20f1_02,
  0x2100_1a, 0x2102_09, 0x2103_1a, 0x2107_09, 0x2108_1a, 0x210a_05, 0x210b_09, 0x210e_05,
  0x2110_09, 0x2113_05, 0x2114_1a, 0x2115_09, 0x2116_1a, 0x2118_19, 0x2119_09, 0x211e_1a,
  0x2124_09, 0x2125_1a, 0x2126_09, 0x2127_1a, 0x2128_09, 0x2129_1a, 0x212a_09, 0x212e_1a,
  0x212f_05, 0x2130_09, 0x2134_05, 0x2135_07, 0x2139_05, 0x213a_1a, 0x213c_05, 0x213e_09,
  0x2140_19, 0x2145_09, 0x2146_05, 0x214a_1a, 0x214b_19, 0x214c_1a, 0x214e_05, 0x214f_1a,
  0x2150_0f, 0x2160_0e, 0x2183_09, 0x2184_05, 0x2185_0e, 0x2189_0f, 0x218a_1a, 0x218c_02,
  0x2190_19, 0x2195_1a, 0x219a_19, 0x219c_1a, 0x21a0_19, 0x21a1_1a, 0x21a3_19, 0x21a4_1a,
  0x21a6_19, 0x21a7_1a, 0x21ae_19, 0x21af_1a, 0x21ce_19, 0x21d0_1a, 0x21d2_19, 0x21d3_1a,
  0x21d4_19, 0x21d5_1a, 0x21f4_19, 0x2300_1a, 0x2308_16, 0x2309_12, 0x230a_16, 0x230b_12,
  0x230c_1a, 0x2320_19, 0x2322_1a, 0x2329_16, 0x232a_12, 0x232b_1a, 0x237c_19, 0x237d_1a,
  0x239b_19, 0x23b4_1a, 0x23dc_19, 0x23e2_1a, 0x242a_02, 0x2440_1a, 0x244b_02, 0x2460_0f,
  0x249c_1a, 0x24ea_0f, 0x2500_1a, 0x25b7_19, 0x25b8_1a, 0x25c1_19, 0x25c2_1a, 0x25f8_19,
  0x2600_1a, 0x266f_19, 0x2670_1a, 0x2768_16, 0x2769_12, 0x276a_16, 0x276b_12, 0x276c_16,
  0x276d_12, 0x276e_16, 0x276f_12, 0x2770_16, 0x2771_12, 0x2772_16, 0x2773_12, 0x2774_16,
  0x2775_12, 0x2776_0f, 0x2794_1a, 0x27c0_19, 0x27c5_16, 0x27c6_12, 0x27c7_19, 0x27e6_16,
  0x27e7_12, 0x27e8_16, 0x27e9_12, 0x27ea_16, 0x27eb_12, 0x27ec_16, 0x27ed_12, 0x27ee_16,
  0x27ef_12, 0x27f0_19, 0x2800_1a, 0x2900_19, 0x2983_16, 0x2984_12, 0x2985_16, 0x2986_12,
  0x2987_16, 0x2988_12, 0x2989_16, 0x298a_12, 0x298b_16, 0x298c_12, 0x298d_16, 0x298e_12,
  0x298f_16, 0x2990_12, 0x2991_16, 0x2992_12, 0x2993_16, 0x2994_12, 0x2995_16, 0x2996_12,
  0x2997_16, 0x2998_12, 0x2999_19, 0x29d8_16, 0x29d9_12, 0x29da_16, 0x29db_12, 0x29dc_19,
  0x29fc_16, 0x29fd_12, 0x29fe_19, 0x2b00_1a, 0x2b30_19, 0x2b45_1a, 0x2b47_19, 0x2b4d_1a,
  0x2b74_02, 0x2b76_1a, 0x2c00_09, 0x2c30_05, 0x2c60_09, 0x2c61_05, 0x2c62_09, 0x2c65_05,
  0x2c67_1e, 0x2c6d_09, 0x2c71_05, 0x2c72_09, 0x2c73_05, 0x2c75_09, 0x2c76_05, 0x2c7c_06,
  0x2c7e_09, 0x2c81_05, 0x2c82_1e, 0x2ce4_05, 0x2ce5_1a, 0x2ceb_1e, 0x2cef_0c, 0x2cf2_09,
  0x2cf3_05, 0x2cf4_02, 0x2cf9_15, 0x2cfd_0f, 0x2cfe_15, 0x2d00_05, 0x2d26_02, 0x2d27_05,
  0x2d28_02, 0x2d2d_05, 0x2d2e_02, 0x2d30_07, 0x2d68_02, 0x2d6f_06, 0x2d70_15, 0x2d71_02,
  0x2d7f_0c, 0x2d80_07, 0x2d97_02, 0x2da0_07, 0x2da7_02, 0x2da8_07, 0x2daf_02, 0x2db0_07,
  0x2db7_02, 0x2db8_07, 0x2dbf_02, 0x2dc0_07, 0x2dc7_02, 0x2dc8_07, 0x2dcf_02, 0x2dd0_07,
  0x2dd7_02, 0x2dd8_07, 0x2ddf_02, 0x2de0_0c, 0x2e00_15, 0x2e02_14, 0x2e03_13, 0x2e04_14,
  0x2e05_13, 0x2e06_15, 0x2e09_14, 0x2e0a_13, 0x2e0b_15, 0x2e0c_14, 0x2e0d_13, 0x2e0e_15,
  0x2e17_11, 0x2e18_15, 0x2e1a_11, 0x2e1b_15, 0x2e1c_14, 0x2e1d_13, 0x2e1e_15, 0x2e20_14,
  0x2e21_13, 0x2e22_16, 0x2e23_12, 0x2e24_16, 0x2e25_12, 0x2e26_16, 0x2e27_12, 0x2e28_16,
  0x2e29_12, 0x2e2a_15, 0x2e2f_06, 0x2e30_15, 0x2e3a_11, 0x2e3c_15, 0x2e40_11, 0x2e41_15,
  0x2e42_16, 0x2e43_15, 0x2e50_1a, 0x2e52_15, 0x2e55_16, 0x2e56_12, 0x2e57_16, 0x2e58_12,
  0x2e59_16, 0x2e5a_12, 0x2e5b_16, 0x2e5c_12, 0x2e5d_11, 0x2e5e_02, 0x2e80_1a, 0x2e9a_02,
  0x2e9b_1a, 0x2ef4_02, 0x2f00_1a, 0x2fd6_02, 0x2ff0_1a, 0x3000_1d, 0x3001_15, 0x3004_1a,
  0x3005_06, 0x3006_07, 0x3007_0e, 0x3008_16, 0x3009_12, 0x300a_16, 0x300b_12, 0x300c_16,
  0x300d_12, 0x300e_16, 0x300f_12, 0x3010_16, 0x3011_12, 0x3012_1a, 0x3014_16, 0x3015_12,
  0x3016_16, 0x3017_12, 0x3018_16, 0x3019_12, 0x301a_16, 0x301b_12, 0x301c_11, 0x301d_16,
  0x301e_12, 0x3020_1a, 0x3021_0e, 0x302a_0c, 0x302e_0a, 0x3030_11, 0x3031_06, 0x3036_1a,
  0x3038_0e, 0x303b_06, 0x303c_07, 0x303d_15, 0x303e_1a, 0x3040_02, 0x3041_07, 0x3097_02,
  0x3099_0c, 0x309b_18, 0x309d_06, 0x309f_07, 0x30a0_11, 0x30a1_07, 0x30fb_15, 0x30fc_06,
  0x30ff_07, 0x3100_02, 0x3105_07, 0x3130_02, 0x3131_07, 0x318f_02, 0x3190_1a, 0x3192_0f,
  0x3196_1a, 0x31a0_07, 0x31c0_1a, 0x31e6_02, 0x31ef_1a, 0x31f0_07, 0x3200_1a, 0x321f_02,
  0x3220_0f, 0x322a_1a, 0x3248_0f, 0x3250_1a, 0x3251_0f, 0x3260_1a, 0x3280_0f, 0x328a_1a,
  0x32b1_0f, 0x32c0_1a, 0x3400_07, 0x4dc0_1a, 0x4e00_07, 0xa015_06, 0xa016_07, 0xa48d_02,
  0xa490_1a, 0xa4c7_02, 0xa4d0_07, 0xa4f8_06, 0xa4fe_15, 0xa500_07, 0xa60c_06, 0xa60d_15,
  0xa610_07, 0xa620_0d, 0xa62a_07, 0xa62c_02, 0xa640_1e, 0xa66e_07, 0xa66f_0c, 0xa670_0b,
  0xa673_15, 0xa674_0c, 0xa67e_15, 0xa67f_06, 0xa680_1e, 0xa69c_06, 0xa69e_0c, 0xa6a0_07,
  0xa6e6_0e, 0xa6f0_0c, 0xa6f2_15, 0xa6f8_02, 0xa700_18, 0xa717_06, 0xa720_18, 0xa722_1e,
  0xa730_05, 0xa732_1e, 0xa770_06, 0xa771_05, 0xa779_1e, 0xa77d_09, 0xa77f_05, 0xa780_1e,
  0xa788_06, 0xa789_18, 0xa78b_1e, 0xa78f_07, 0xa790_1e, 0xa794_05, 0xa796_1e, 0xa7aa_09,
  0xa7af_05, 0xa7b0_09, 0xa7b5_05, 0xa7b6_1e, 0xa7c4_09, 0xa7c8_05, 0xa7c9_09, 0xa7ca_05,
  0xa7cb_09, 0xa7cd_05, 0xa7ce_1e, 0xa7dc_09, 0xa7dd_02, 0xa7f1_06, 0xa7f5_09, 0xa7f6_05,
  0xa7f7_07, 0xa7f8_06, 0xa7fa_05, 0xa7fb_07, 0xa802_0c, 0xa803_07, 0xa806_0c, 0xa807_07,
  0xa80b_0c, 0xa80c_07, 0xa823_0a, 0xa825_0c, 0xa827_0a, 0xa828_1a, 0xa82c_0c, 0xa82d_02,
  0xa830_0f, 0xa836_1a, 0xa838_17, 0xa839_1a, 0xa83a_02, 0xa840_07, 0xa874_15, 0xa878_02,
  0xa880_0a, 0xa882_07, 0xa8b4_0a, 0xa8c4_0c, 0xa8c6_02, 0xa8ce_15, 0xa8d0_0d, 0xa8da_02,
  0xa8e0_0c, 0xa8f2_07, 0xa8f8_15, 0xa8fb_07, 0xa8fc_15, 0xa8fd_07, 0xa8ff_0c, 0xa900_0d,
  0xa90a_07, 0xa926_0c, 0xa92e_15, 0xa930_07, 0xa947_0c, 0xa952_0a, 0xa954_02, 0xa95f_15,
  0xa960_07, 0xa97d_02, 0xa980_0c, 0xa983_0a, 0xa984_07, 0xa9b3_0c, 0xa9b4_0a, 0xa9b6_0c,
  0xa9ba_0a, 0xa9bc_0c, 0xa9be_0a, 0xa9c1_15, 0xa9ce_02, 0xa9cf_06, 0xa9d0_0d, 0xa9da_02,
  0xa9de_15, 0xa9e0_07, 0xa9e5_0c, 0xa9e6_06, 0xa9e7_07, 0xa9f0_0d, 0xa9fa_07, 0xa9ff_02,
  0xaa00_07, 0xaa29_0c, 0xaa2f_0a, 0xaa31_0c, 0xaa33_0a, 0xaa35_0c, 0xaa37_02, 0xaa40_07,
  0xaa43_0c, 0xaa44_07, 0xaa4c_0c, 0xaa4d_0a, 0xaa4e_02, 0xaa50_0d, 0xaa5a_02, 0xaa5c_15,
  0xaa60_07, 0xaa70_06, 0xaa71_07, 0xaa77_1a, 0xaa7a_07, 0xaa7b_0a, 0xaa7c_0c, 0xaa7d_0a,
  0xaa7e_07, 0xaab0_0c, 0xaab1_07, 0xaab2_0c, 0xaab5_07, 0xaab7_0c, 0xaab9_07, 0xaabe_0c,
  0xaac0_07, 0xaac1_0c, 0xaac2_07, 0xaac3_02, 0xaadb_07, 0xaadd_06, 0xaade_15, 0xaae0_07,
  0xaaeb_0a, 0xaaec_0c, 0xaaee_0a, 0xaaf0_15, 0xaaf2_07, 0xaaf3_06, 0xaaf5_0a, 0xaaf6_0c,
  0xaaf7_02, 0xab01_07, 0xab07_02, 0xab09_07, 0xab0f_02, 0xab11_07, 0xab17_02, 0xab20_07,
  0xab27_02, 0xab28_07, 0xab2f_02, 0xab30_05, 0xab5b_18, 0xab5c_06, 0xab60_05, 0xab69_06,
  0xab6a_18, 0xab6c_02, 0xab70_05, 0xabc0_07, 0xabe3_0a, 0xabe5_0c, 0xabe6_0a, 0xabe8_0c,
  0xabe9_0a, 0xabeb_15, 0xabec_0a, 0xabed_0c, 0xabee_02, 0xabf0_0d, 0xabfa_02, 0xac00_07,
  0xd7a4_02, 0xd7b0_07, 0xd7c7_02, 0xd7cb_07, 0xd7fc_02, 0xd800_04, 0xe000_03, 0xf900_07,
  0xfa6e_02, 0xfa70_07, 0xfada_02, 0xfb00_05, 0xfb07_02, 0xfb13_05, 0xfb18_02, 0xfb1d_07,
  0xfb1e_0c, 0xfb1f_07, 0xfb29_19, 0xfb2a_07, 0xfb37_02, 0xfb38_07, 0xfb3d_02, 0xfb3e_07,
  0xfb3f_02, 0xfb40_07, 0xfb42_02, 0xfb43_07, 0xfb45_02, 0xfb46_07, 0xfbb2_18, 0xfbc3_1a,
  0xfbd3_07, 0xfd3e_12, 0xfd3f_16, 0xfd40_1a, 0xfd50_07, 0xfd90_1a, 0xfd92_07, 0xfdc8_1a,
  0xfdd0_02, 0xfdf0_07, 0xfdfc_17, 0xfdfd_1a, 0xfe00_0c, 0xfe10_15, 0xfe17_16, 0xfe18_12,
  0xfe19_15, 0xfe1a_02, 0xfe20_0c, 0xfe30_15, 0xfe31_11, 0xfe33_10, 0xfe35_16, 0xfe36_12,
  0xfe37_16, 0xfe38_12, 0xfe39_16, 0xfe3a_12, 0xfe3b_16, 0xfe3c_12, 0xfe3d_16, 0xfe3e_12,
  0xfe3f_16, 0xfe40_12, 0xfe41_16, 0xfe42_12, 0xfe43_16, 0xfe44_12, 0xfe45_15, 0xfe47_16,
  0xfe48_12, 0xfe49_15, 0xfe4d_10, 0xfe50_15, 0xfe53_02, 0xfe54_15, 0xfe58_11, 0xfe59_16,
  0xfe5a_12, 0xfe5b_16, 0xfe5c_12, 0xfe5d_16, 0xfe5e_12, 0xfe5f_15, 0xfe62_19, 0xfe63_11,
  0xfe64_19, 0xfe67_02, 0xfe68_15, 0xfe69_17, 0xfe6a_15, 0xfe6c_02, 0xfe70_07, 0xfe75_02,
  0xfe76_07, 0xfefd_02, 0xfeff_01, 0xff00_02, 0xff01_15, 0xff04_17, 0xff05_15, 0xff08_16,
  0xff09_12, 0xff0a_15, 0xff0b_19, 0xff0c_15, 0xff0d_11, 0xff0e_15, 0xff10_0d, 0xff1a_15,
  0xff1c_19, 0xff1f_15, 0xff21_09, 0xff3b_16, 0xff3c_15, 0xff3d_12, 0xff3e_18, 0xff3f_10,
  0xff40_18, 0xff41_05, 0xff5b_16, 0xff5c_19, 0xff5d_12, 0xff5e_19, 0xff5f_16, 0xff60_12,
  0xff61_15, 0xff62_16, 0xff63_12, 0xff64_15, 0xff66_07, 0xff70_06, 0xff71_07, 0xff9e_06,
  0xffa0_07, 0xffbf_02, 0xffc2_07, 0xffc8_02, 0xffca_07, 0xffd0_02, 0xffd2_07, 0xffd8_02,
  0xffda_07, 0xffdd_02, 0xffe0_17, 0xffe2_19, 0xffe3_18, 0xffe4_1a, 0xffe5_17, 0xffe7_02,
  0xffe8_1a, 0xffe9_19, 0xffed_1a, 0xffef_02, 0xfff9_01, 0xfffc_1a, 0xfffe_02, 0x10000_07,
  0x1000c_02, 0x1000d_07, 0x10027_02, 0x10028_07, 0x1003b_02, 0x1003c_07, 0x1003e_02, 0x1003f_07,
  0x1004e_02, 0x10050_07, 0x1005e_02, 0x10080_07, 0x100fb_02, 0x10100_15, 0x10103_02, 0x10107_0f,
  0x10134_02, 0x10137_1a, 0x10140_0e, 0x10175_0f, 0x10179_1a, 0x1018a_0f, 0x1018c_1a, 0x1018f_02,
  0x10190_1a, 0x1019d_02, 0x101a0_1a, 0x101a1_02, 0x101d0_1a, 0x101fd_0c, 0x101fe_02, 0x10280_07,
  0x1029d_02, 0x102a0_07, 0x102d1_02, 0x102e0_0c, 0x102e1_0f, 0x102fc_02, 0x10300_07, 0x10320_0f,
  0x10324_02, 0x1032d_07, 0x10341_0e, 0x10342_07, 0x1034a_0e, 0x1034b_02, 0x10350_07, 0x10376_0c,
  0x1037b_02, 0x10380_07, 0x1039e_02, 0x1039f_15, 0x103a0_07, 0x103c4_02, 0x103c8_07, 0x103d0_15,
  0x103d1_0e, 0x103d6_02, 0x10400_09, 0x10428_05, 0x10450_07, 0x1049e_02, 0x104a0_0d, 0x104aa_02,
  0x104b0_09, 0x104d4_02, 0x104d8_05, 0x104fc_02, 0x10500_07, 0x10528_02, 0x10530_07, 0x10564_02,
  0x1056f_15, 0x10570_09, 0x1057b_02, 0x1057c_09, 0x1058b_02, 0x1058c_09, 0x10593_02, 0x10594_09,
  0x10596_02, 0x10597_05, 0x105a2_02, 0x105a3_05, 0x105b2_02, 0x105b3_05, 0x105ba_02, 0x105bb_05,
  0x105bd_02, 0x105c0_07, 0x105f4_02, 0x10600_07, 0x10737_02, 0x10740_07, 0x10756_02, 0x10760_07,
  0x10768_02, 0x10780_06, 0x10786_02, 0x10787_06, 0x107b1_02, 0x107b2_06, 0x107bb_02, 0x10800_07,
  0x10806_02, 0x10808_07, 0x10809_02, 0x1080a_07, 0x10836_02, 0x10837_07, 0x10839_02, 0x1083c_07,
  0x1083d_02, 0x1083f_07, 0x10856_02, 0x10857_15, 0x10858_0f, 0x10860_07, 0x10877_1a, 0x10879_0f,
  0x10880_07, 0x1089f_02, 0x108a7_0f, 0x108b0_02, 0x108e0_07, 0x108f3_02, 0x108f4_07, 0x108f6_02,
  0x108fb_0f, 0x10900_07, 0x10916_0f, 0x1091c_02, 0x1091f_15, 0x10920_07, 0x1093a_02, 0x1093f_15,
  0x10940_07, 0x1095a_02, 0x10980_07, 0x109b8_02, 0x109bc_0f, 0x109be_07, 0x109c0_0f, 0x109d0_02,
  0x109d2_0f, 0x10a00_07, 0x10a01_0c, 0x10a04_02, 0x10a05_0c, 0x10a07_02, 0x10a0c_0c, 0x10a10_07,
  0x10a14_02, 0x10a15_07, 0x10a18_02, 0x10a19_07, 0x10a36_02, 0x10a38_0c, 0x10a3b_02, 0x10a3f_0c,
  0x10a40_0f, 0x10a49_02, 0x10a50_15, 0x10a59_02, 0x10a60_07, 0x10a7d_0f, 0x10a7f_15, 0x10a80_07,
  0x10a9d_0f, 0x10aa0_02, 0x10ac0_07, 0x10ac8_1a, 0x10ac9_07, 0x10ae5_0c, 0x10ae7_02, 0x10aeb_0f,
  0x10af0_15, 0x10af7_02, 0x10b00_07, 0x10b36_02, 0x10b39_15, 0x10b40_07, 0x10b56_02, 0x10b58_0f,
  0x10b60_07, 0x10b73_02, 0x10b78_0f, 0x10b80_07, 0x10b92_02, 0x10b99_15, 0x10b9d_02, 0x10ba9_0f,
  0x10bb0_02, 0x10c00_07, 0x10c49_02, 0x10c80_09, 0x10cb3_02, 0x10cc0_05, 0x10cf3_02, 0x10cfa_0f,
  0x10d00_07, 0x10d24_0c, 0x10d28_02, 0x10d30_0d, 0x10d3a_02, 0x10d40_0d, 0x10d4a_07, 0x10d4e_06,
  0x10d4f_07, 0x10d50_09, 0x10d66_02, 0x10d69_0c, 0x10d6e_11, 0x10d6f_06, 0x10d70_05, 0x10d86_02,
  0x10d8e_19, 0x10d90_02, 0x10e60_0f, 0x10e7f_02, 0x10e80_07, 0x10eaa_02, 0x10eab_0c, 0x10ead_11,
  0x10eae_02, 0x10eb0_07, 0x10eb2_02, 0x10ec2_07, 0x10ec5_06, 0x10ec6_07, 0x10ec8_02, 0x10ed0_15,
  0x10ed1_1a, 0x10ed9_02, 0x10efa_0c, 0x10f00_07, 0x10f1d_0f, 0x10f27_07, 0x10f28_02, 0x10f30_07,
  0x10f46_0c, 0x10f51_0f, 0x10f55_15, 0x10f5a_02, 0x10f70_07, 0x10f82_0c, 0x10f86_15, 0x10f8a_02,
  0x10fb0_07, 0x10fc5_0f, 0x10fcc_02, 0x10fe0_07, 0x10ff7_02, 0x11000_0a, 0x11001_0c, 0x11002_0a,
  0x11003_07, 0x11038_0c, 0x11047_15, 0x1104e_02, 0x11052_0f, 0x11066_0d, 0x11070_0c, 0x11071_07,
  0x11073_0c, 0x11075_07, 0x11076_02, 0x1107f_0c, 0x11082_0a, 0x11083_07, 0x110b0_0a, 0x110b3_0c,
  0x110b7_0a, 0x110b9_0c, 0x110bb_15, 0x110bd_01, 0x110be_15, 0x110c2_0c, 0x110c3_02, 0x110cd_01,
  0x110ce_02, 0x110d0_07, 0x110e9_02, 0x110f0_0d, 0x110fa_02, 0x11100_0c, 0x11103_07, 0x11127_0c,
  0x1112c_0a, 0x1112d_0c, 0x11135_02, 0x11136_0d, 0x11140_15, 0x11144_07, 0x11145_0a, 0x11147_07,
  0x11148_02, 0x11150_07, 0x11173_0c, 0x11174_15, 0x11176_07, 0x11177_02, 0x11180_0c, 0x11182_0a,
  0x11183_07, 0x111b3_0a, 0x111b6_0c, 0x111bf_0a, 0x111c1_07, 0x111c5_15, 0x111c9_0c, 0x111cd_15,
  0x111ce_0a, 0x111cf_0c, 0x111d0_0d, 0x111da_07, 0x111db_15, 0x111dc_07, 0x111dd_15, 0x111e0_02,
  0x111e1_0f, 0x111f5_02, 0x11200_07, 0x11212_02, 0x11213_07, 0x1122c_0a, 0x1122f_0c, 0x11232_0a,
  0x11234_0c, 0x11235_0a, 0x11236_0c, 0x11238_15, 0x1123e_0c, 0x1123f_07, 0x11241_0c, 0x11242_02,
  0x11280_07, 0x11287_02, 0x11288_07, 0x11289_02, 0x1128a_07, 0x1128e_02, 0x1128f_07, 0x1129e_02,
  0x1129f_07, 0x112a9_15, 0x112aa_02, 0x112b0_07, 0x112df_0c, 0x112e0_0a, 0x112e3_0c, 0x112eb_02,
  0x112f0_0d, 0x112fa_02, 0x11300_0c, 0x11302_0a, 0x11304_02, 0x11305_07, 0x1130d_02, 0x1130f_07,
  0x11311_02, 0x11313_07, 0x11329_02, 0x1132a_07, 0x11331_02, 0x11332_07, 0x11334_02, 0x11335_07,
  0x1133a_02, 0x1133b_0c, 0x1133d_07, 0x1133e_0a, 0x11340_0c, 0x11341_0a, 0x11345_02, 0x11347_0a,
  0x11349_02, 0x1134b_0a, 0x1134e_02, 0x11350_07, 0x11351_02, 0x11357_0a, 0x11358_02, 0x1135d_07,
  0x11362_0a, 0x11364_02, 0x11366_0c, 0x1136d_02, 0x11370_0c, 0x11375_02, 0x11380_07, 0x1138a_02,
  0x1138b_07, 0x1138c_02, 0x1138e_07, 0x1138f_02, 0x11390_07, 0x113b6_02, 0x113b7_07, 0x113b8_0a,
  0x113bb_0c, 0x113c1_02, 0x113c2_0a, 0x113c3_02, 0x113c5_0a, 0x113c6_02, 0x113c7_0a, 0x113cb_02,
  0x113cc_0a, 0x113ce_0c, 0x113cf_0a, 0x113d0_0c, 0x113d1_07, 0x113d2_0c, 0x113d3_07, 0x113d4_15,
  0x113d6_02, 0x113d7_15, 0x113d9_02, 0x113e1_0c, 0x113e3_02, 0x11400_07, 0x11435_0a, 0x11438_0c,
  0x11440_0a, 0x11442_0c, 0x11445_0a, 0x11446_0c, 0x11447_07, 0x1144b_15, 0x11450_0d, 0x1145a_15,
  0x1145c_02, 0x1145d_15, 0x1145e_0c, 0x1145f_07, 0x11462_02, 0x11480_07, 0x114b0_0a, 0x114b3_0c,
  0x114b9_0a, 0x114ba_0c, 0x114bb_0a, 0x114bf_0c, 0x114c1_0a, 0x114c2_0c, 0x114c4_07, 0x114c6_15,
  0x114c7_07, 0x114c8_02, 0x114d0_0d, 0x114da_02, 0x11580_07, 0x115af_0a, 0x115b2_0c, 0x115b6_02,
  0x115b8_0a, 0x115bc_0c, 0x115be_0a, 0x115bf_0c, 0x115c1_15, 0x115d8_07, 0x115dc_0c, 0x115de_02,
  0x11600_07, 0x11630_0a, 0x11633_0c, 0x1163b_0a, 0x1163d_0c, 0x1163e_0a, 0x1163f_0c, 0x11641_15,
  0x11644_07, 0x11645_02, 0x11650_0d, 0x1165a_02, 0x11660_15, 0x1166d_02, 0x11680_07, 0x116ab_0c,
  0x116ac_0a, 0x116ad_0c, 0x116ae_0a, 0x116b0_0c, 0x116b6_0a, 0x116b7_0c, 0x116b8_07, 0x116b9_15,
  0x116ba_02, 0x116c0_0d, 0x116ca_02, 0x116d0_0d, 0x116e4_02, 0x11700_07, 0x1171b_02, 0x1171d_0c,
  0x1171e_0a, 0x1171f_0c, 0x11720_0a, 0x11722_0c, 0x11726_0a, 0x11727_0c, 0x1172c_02, 0x11730_0d,
  0x1173a_0f, 0x1173c_15, 0x1173f_1a, 0x11740_07, 0x11747_02, 0x11800_07, 0x1182c_0a, 0x1182f_0c,
  0x11838_0a, 0x11839_0c, 0x1183b_15, 0x1183c_02, 0x118a0_09, 0x118c0_05, 0x118e0_0d, 0x118ea_0f,
  0x118f3_02, 0x118ff_07, 0x11907_02, 0x11909_07, 0x1190a_02, 0x1190c_07, 0x11914_02, 0x11915_07,
  0x11917_02, 0x11918_07, 0x11930_0a, 0x11936_02, 0x11937_0a, 0x11939_02, 0x1193b_0c, 0x1193d_0a,
  0x1193e_0c, 0x1193f_07, 0x11940_0a, 0x11941_07, 0x11942_0a, 0x11943_0c, 0x11944_15, 0x11947_02,
  0x11950_0d, 0x1195a_02, 0x119a0_07, 0x119a8_02, 0x119aa_07, 0x119d1_0a, 0x119d4_0c, 0x119d8_02,
  0x119da_0c, 0x119dc_0a, 0x119e0_0c, 0x119e1_07, 0x119e2_15, 0x119e3_07, 0x119e4_0a, 0x119e5_02,
  0x11a00_07, 0x11a01_0c, 0x11a0b_07, 0x11a33_0c, 0x11a39_0a, 0x11a3a_07, 0x11a3b_0c, 0x11a3f_15,
  0x11a47_0c, 0x11a48_02, 0x11a50_07, 0x11a51_0c, 0x11a57_0a, 0x11a59_0c, 0x11a5c_07, 0x11a8a_0c,
  0x11a97_0a, 0x11a98_0c, 0x11a9a_15, 0x11a9d_07, 0x11a9e_15, 0x11aa3_02, 0x11ab0_07, 0x11af9_02,
  0x11b00_15, 0x11b0a_02, 0x11b60_0c, 0x11b61_0a, 0x11b62_0c, 0x11b65_0a, 0x11b66_0c, 0x11b67_0a,
  0x11b68_02, 0x11bc0_07, 0x11be1_15, 0x11be2_02, 0x11bf0_0d, 0x11bfa_02, 0x11c00_07, 0x11c09_02,
  0x11c0a_07, 0x11c2f_0a, 0x11c30_0c, 0x11c37_02, 0x11c38_0c, 0x11c3e_0a, 0x11c3f_0c, 0x11c40_07,
  0x11c41_15, 0x11c46_02, 0x11c50_0d, 0x11c5a_0f, 0x11c6d_02, 0x11c70_15, 0x11c72_07, 0x11c90_02,
  0x11c92_0c, 0x11ca8_02, 0x11ca9_0a, 0x11caa_0c, 0x11cb1_0a, 0x11cb2_0c, 0x11cb4_0a, 0x11cb5_0c,
  0x11cb7_02, 0x11d00_07, 0x11d07_02, 0x11d08_07, 0x11d0a_02, 0x11d0b_07, 0x11d31_0c, 0x11d37_02,
  0x11d3a_0c, 0x11d3b_02, 0x11d3c_0c, 0x11d3e_02, 0x11d3f_0c, 0x11d46_07, 0x11d47_0c, 0x11d48_02,
  0x11d50_0d, 0x11d5a_02, 0x11d60_07, 0x11d66_02, 0x11d67_07, 0x11d69_02, 0x11d6a_07, 0x11d8a_0a,
  0x11d8f_02, 0x11d90_0c, 0x11d92_02, 0x11d93_0a, 0x11d95_0c, 0x11d96_0a, 0x11d97_0c, 0x11d98_07,
  0x11d99_02, 0x11da0_0d, 0x11daa_02, 0x11db0_07, 0x11dd9_06, 0x11dda_07, 0x11ddc_02, 0x11de0_0d,
  0x11dea_02, 0x11ee0_07, 0x11ef3_0c, 0x11ef5_0a, 0x11ef7_15, 0x11ef9_02, 0x11f00_0c, 0x11f02_07,
  0x11f03_0a, 0x11f04_07, 0x11f11_02, 0x11f12_07, 0x11f34_0a, 0x11f36_0c, 0x11f3b_02, 0x11f3e_0a,
  0x11f40_0c, 0x11f41_0a, 0x11f42_0c, 0x11f43_15, 0x11f50_0d, 0x11f5a_0c, 0x11f5b_02, 0x11fb0_07,
  0x11fb1_02, 0x11fc0_0f, 0x11fd5_1a, 0x11fdd_17, 0x11fe1_1a, 0x11ff2_02, 0x11fff_15, 0x12000_07,
  0x1239a_02, 0x12400_0e, 0x1246f_02, 0x12470_15, 0x12475_02, 0x12480_07, 0x12544_02, 0x12f90_07,
  0x12ff1_15, 0x12ff3_02, 0x13000_07, 0x13430_01, 0x13440_0c, 0x13441_07, 0x13447_0c, 0x13456_02,
  0x13460_07, 0x143fb_02, 0x14400_07, 0x14647_02, 0x16100_07, 0x1611e_0c, 0x1612a_0a, 0x1612d_0c,
  0x16130_0d, 0x1613a_02, 0x16800_07, 0x16a39_02, 0x16a40_07, 0x16a5f_02, 0x16a60_0d, 0x16a6a_02,
  0x16a6e_15, 0x16a70_07, 0x16abf_02, 0x16ac0_0d, 0x16aca_02, 0x16ad0_07, 0x16aee_02, 0x16af0_0c,
  0x16af5_15, 0x16af6_02, 0x16b00_07, 0x16b30_0c, 0x16b37_15, 0x16b3c_1a, 0x16b40_06, 0x16b44_15,
  0x16b45_1a, 0x16b46_02, 0x16b50_0d, 0x16b5a_02, 0x16b5b_0f, 0x16b62_02, 0x16b63_07, 0x16b78_02,
  0x16b7d_07, 0x16b90_02, 0x16d40_06, 0x16d43_07, 0x16d6b_06, 0x16d6d_15, 0x16d70_0d, 0x16d7a_02,
  0x16e40_09, 0x16e60_05, 0x16e80_0f, 0x16e97_15, 0x16e9b_02, 0x16ea0_09, 0x16eb9_02, 0x16ebb_05,
  0x16ed4_02, 0x16f00_07, 0x16f4b_02, 0x16f4f_0c, 0x16f50_07, 0x16f51_0a, 0x16f88_02, 0x16f8f_0c,
  0x16f93_06, 0x16fa0_02, 0x16fe0_06, 0x16fe2_15, 0x16fe3_06, 0x16fe4_0c, 0x16fe5_02, 0x16ff0_0a,
  0x16ff2_06, 0x16ff4_0e, 0x16ff7_02, 0x17000_07, 0x18cd6_02, 0x18cff_07, 0x18d1f_02, 0x18d80_07,
  0x18df3_02, 0x1aff0_06, 0x1aff4_02, 0x1aff5_06, 0x1affc_02, 0x1affd_06, 0x1afff_02, 0x1b000_07,
  0x1b123_02, 0x1b132_07, 0x1b133_02, 0x1b150_07, 0x1b153_02, 0x1b155_07, 0x1b156_02, 0x1b164_07,
  0x1b168_02, 0x1b170_07, 0x1b2fc_02, 0x1bc00_07, 0x1bc6b_02, 0x1bc70_07, 0x1bc7d_02, 0x1bc80_07,
  0x1bc89_02, 0x1bc90_07, 0x1bc9a_02, 0x1bc9c_1a, 0x1bc9d_0c, 0x1bc9f_15, 0x1bca0_01, 0x1bca4_02,
  0x1cc00_1a, 0x1ccf0_0d, 0x1ccfa_1a, 0x1ccfd_02, 0x1cd00_1a, 0x1ceb4_02, 0x1ceba_1a, 0x1ced1_02,
  0x1cee0_1a, 0x1cef0_19, 0x1cef1_02, 0x1cf00_0c, 0x1cf2e_02, 0x1cf30_0c, 0x1cf47_02, 0x1cf50_1a,
  0x1cfc4_02, 0x1d000_1a, 0x1d0f6_02, 0x1d100_1a, 0x1d127_02, 0x1d129_1a, 0x1d165_0a, 0x1d167_0c,
  0x1d16a_1a, 0x1d16d_0a, 0x1d173_01, 0x1d17b_0c, 0x1d183_1a, 0x1d185_0c, 0x1d18c_1a, 0x1d1aa_0c,
  0x1d1ae_1a, 0x1d1eb_02, 0x1d200_1a, 0x1d242_0c, 0x1d245_1a, 0x1d246_02, 0x1d2c0_0f, 0x1d2d4_02,
  0x1d2e0_0f, 0x1d2f4_02, 0x1d300_1a, 0x1d357_02, 0x1d360_0f, 0x1d379_02, 0x1d400_09, 0x1d41a_05,
  0x1d434_09, 0x1d44e_05, 0x1d455_02, 0x1d456_05, 0x1d468_09, 0x1d482_05, 0x1d49c_09, 0x1d49d_02,
  0x1d49e_09, 0x1d4a0_02, 0x1d4a2_09, 0x1d4a3_02, 0x1d4a5_09, 0x1d4a7_02, 0x1d4a9_09, 0x1d4ad_02,
  0x1d4ae_09, 0x1d4b6_05, 0x1d4ba_02, 0x1d4bb_05, 0x1d4bc_02, 0x1d4bd_05, 0x1d4c4_02, 0x1d4c5_05,
  0x1d4d0_09, 0x1d4ea_05, 0x1d504_09, 0x1d506_02, 0x1d507_09, 0x1d50b_02, 0x1d50d_09, 0x1d515_02,
  0x1d516_09, 0x1d51d_02, 0x1d51e_05, 0x1d538_09, 0x1d53a_02, 0x1d53b_09, 0x1d53f_02, 0x1d540_09,
  0x1d545_02, 0x1d546_09, 0x1d547_02, 0x1d54a_09, 0x1d551_02, 0x1d552_05, 0x1d56c_09, 0x1d586_05,
  0x1d5a0_09, 0x1d5ba_05, 0x1d5d4_09, 0x1d5ee_05, 0x1d608_09, 0x1d622_05, 0x1d63c_09, 0x1d656_05,
  0x1d670_09, 0x1d68a_05, 0x1d6a6_02, 0x1d6a8_09, 0x1d6c1_19, 0x1d6c2_05, 0x1d6db_19, 0x1d6dc_05,
  0x1d6e2_09, 0x1d6fb_19, 0x1d6fc_05, 0x1d715_19, 0x1d716_05, 0x1d71c_09, 0x1d735_19, 0x1d736_05,
  0x1d74f_19, 0x1d750_05, 0x1d756_09, 0x1d76f_19, 0x1d770_05, 0x1d789_19, 0x1d78a_05, 0x1d790_09,
  0x1d7a9_19, 0x1d7aa_05, 0x1d7c3_19, 0x1d7c4_05, 0x1d7ca_09, 0x1d7cb_05, 0x1d7cc_02, 0x1d7ce_0d,
  0x1d800_1a, 0x1da00_0c, 0x1da37_1a, 0x1da3b_0c, 0x1da6d_1a, 0x1da75_0c, 0x1da76_1a, 0x1da84_0c,
  0x1da85_1a, 0x1da87_15, 0x1da8c_02, 0x1da9b_0c, 0x1daa0_02, 0x1daa1_0c, 0x1dab0_02, 0x1df00_05,
  0x1df0a_07, 0x1df0b_05, 0x1df1f_02, 0x1df25_05, 0x1df2b_02, 0x1e000_0c, 0x1e007_02, 0x1e008_0c,
  0x1e019_02, 0x1e01b_0c, 0x1e022_02, 0x1e023_0c, 0x1e025_02, 0x1e026_0c, 0x1e02b_02, 0x1e030_06,
  0x1e06e_02, 0x1e08f_0c, 0x1e090_02, 0x1e100_07, 0x1e12d_02, 0x1e130_0c, 0x1e137_06, 0x1e13e_02,
  0x1e140_0d, 0x1e14a_02, 0x1e14e_07, 0x1e14f_1a, 0x1e150_02, 0x1e290_07, 0x1e2ae_0c, 0x1e2af_02,
  0x1e2c0_07, 0x1e2ec_0c, 0x1e2f0_0d, 0x1e2fa_02, 0x1e2ff_17, 0x1e300_02, 0x1e4d0_07, 0x1e4eb_06,
  0x1e4ec_0c, 0x1e4f0_0d, 0x1e4fa_02, 0x1e5d0_07, 0x1e5ee_0c, 0x1e5f0_07, 0x1e5f1_0d, 0x1e5fb_02,
  0x1e5ff_15, 0x1e600_02, 0x1e6c0_07, 0x1e6df_02, 0x1e6e0_07, 0x1e6e3_0c, 0x1e6e4_07, 0x1e6e6_0c,
  0x1e6e7_07, 0x1e6ee_0c, 0x1e6f0_07, 0x1e6f5_0c, 0x1e6f6_02, 0x1e6fe_07, 0x1e6ff_06, 0x1e700_02,
  0x1e7e0_07, 0x1e7e7_02, 0x1e7e8_07, 0x1e7ec_02, 0x1e7ed_07, 0x1e7ef_02, 0x1e7f0_07, 0x1e7ff_02,
  0x1e800_07, 0x1e8c5_02, 0x1e8c7_0f, 0x1e8d0_0c, 0x1e8d7_02, 0x1e900_09, 0x1e922_05, 0x1e944_0c,
  0x1e94b_06, 0x1e94c_02, 0x1e950_0d, 0x1e95a_02, 0x1e95e_15, 0x1e960_02, 0x1ec71_0f, 0x1ecac_1a,
  0x1ecad_0f, 0x1ecb0_17, 0x1ecb1_0f, 0x1ecb5_02, 0x1ed01_0f, 0x1ed2e_1a, 0x1ed2f_0f, 0x1ed3e_02,
  0x1ee00_07, 0x1ee04_02, 0x1ee05_07, 0x1ee20_02, 0x1ee21_07, 0x1ee23_02, 0x1ee24_07, 0x1ee25_02,
  0x1ee27_07, 0x1ee28_02, 0x1ee29_07, 0x1ee33_02, 0x1ee34_07, 0x1ee38_02, 0x1ee39_07, 0x1ee3a_02,
  0x1ee3b_07, 0x1ee3c_02, 0x1ee42_07, 0x1ee43_02, 0x1ee47_07, 0x1ee48_02, 0x1ee49_07, 0x1ee4a_02,
  0x1ee4b_07, 0x1ee4c_02, 0x1ee4d_07, 0x1ee50_02, 0x1ee51_07, 0x1ee53_02, 0x1ee54_07, 0x1ee55_02,
  0x1ee57_07, 0x1ee58_02, 0x1ee59_07, 0x1ee5a_02, 0x1ee5b_07, 0x1ee5c_02, 0x1ee5d_07, 0x1ee5e_02,
  0x1ee5f_07, 0x1ee60_02, 0x1ee61_07, 0x1ee63_02, 0x1ee64_07, 0x1ee65_02, 0x1ee67_07, 0x1ee6b_02,
  0x1ee6c_07, 0x1ee73_02, 0x1ee74_07, 0x1ee78_02, 0x1ee79_07, 0x1ee7d_02, 0x1ee7e_07, 0x1ee7f_02,
  0x1ee80_07, 0x1ee8a_02, 0x1ee8b_07, 0x1ee9c_02, 0x1eea1_07, 0x1eea4_02, 0x1eea5_07, 0x1eeaa_02,
  0x1eeab_07, 0x1eebc_02, 0x1eef0_19, 0x1eef2_02, 0x1f000_1a, 0x1f02c_02, 0x1f030_1a, 0x1f094_02,
  0x1f0a0_1a, 0x1f0af_02, 0x1f0b1_1a, 0x1f0c0_02, 0x1f0c1_1a, 0x1f0d0_02, 0x1f0d1_1a, 0x1f0f6_02,
  0x1f100_0f, 0x1f10d_1a, 0x1f1ae_02, 0x1f1e6_1a, 0x1f203_02, 0x1f210_1a, 0x1f23c_02, 0x1f240_1a,
  0x1f249_02, 0x1f250_1a, 0x1f252_02, 0x1f260_1a, 0x1f266_02, 0x1f300_1a, 0x1f3fb_18, 0x1f400_1a,
  0x1f6d9_02, 0x1f6dc_1a, 0x1f6ed_02, 0x1f6f0_1a, 0x1f6fd_02, 0x1f700_1a, 0x1f7da_02, 0x1f7e0_1a,
  0x1f7ec_02, 0x1f7f0_1a, 0x1f7f1_02, 0x1f800_1a, 0x1f80c_02, 0x1f810_1a, 0x1f848_02, 0x1f850_1a,
  0x1f85a_02, 0x1f860_1a, 0x1f888_02, 0x1f890_1a, 0x1f8ae_02, 0x1f8b0_1a, 0x1f8bc_02, 0x1f8c0_1a,
  0x1f8c2_02, 0x1f8d0_19, 0x1f8d9_02, 0x1f900_1a, 0x1fa58_02, 0x1fa60_1a, 0x1fa6e_02, 0x1fa70_1a,
  0x1fa7d_02, 0x1fa80_1a, 0x1fa8b_02, 0x1fa8e_1a, 0x1fac7_02, 0x1fac8_1a, 0x1fac9_02, 0x1facd_1a,
  0x1fadd_02, 0x1fadf_1a, 0x1faeb_02, 0x1faef_1a, 0x1faf9_02, 0x1fb00_1a, 0x1fb93_02, 0x1fb94_1a,
  0x1fbf0_0d, 0x1fbfa_1a, 0x1fbfb_02, 0x20000_07, 0x2a6e0_02, 0x2a700_07, 0x2b81e_02, 0x2b820_07,
  0x2ceae_02, 0x2ceb0_07, 0x2ebe1_02, 0x2ebf0_07, 0x2ee5e_02, 0x2f800_07, 0x2fa1e_02, 0x30000_07,
  0x3134b_02, 0x31350_07, 0x3347a_02, 0xe0001_01, 0xe0002_02, 0xe0020_01, 0xe0080_02, 0xe0100_0c,
  0xe01f0_02, 0xf0000_03, 0xffffe_02, 0x100000_03, 0x10fffe_02]

/-- The category of a code point: that of the last run that begins at or before it. -/
def categoryAt (n : Nat) : Category :=
  let run := categoryRuns.getD (rank categoryRuns (n * 256 + 255) - 1) 0
  if run % 256 == 30 then if (n - run / 256) % 2 == 0 then .lu else .ll
  else Category.all.getD (run % 256) .cn

/-- The general category of a character. -/
def category (c : Char) : Category :=
  categoryAt c.toNat

end PojoGraph.Text
